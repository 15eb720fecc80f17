import Mathlib
import NorFlash.Block.Memory
import NorFlash.Proofs.PoolLedger
import NorFlash.Proofs.ScratchRead

/-!
What a read that fails leaves of the entity that it was made through. Memory checks everything
before it moves the cursor. A flash device moves it with every raw read that is served, and a
failure behind the first of them does not take it back.
-/
namespace NorFlash.Block

theorem Window.advance_eq_self_iff {window : Window} {count : Nat} :
    window.advance count = window ↔ count = 0 := by
  obtain ⟨base, size, cursor⟩ := window
  simp only [advance, mk.injEq, true_and]
  omega

variable {ρ : Type} [RawFlash ρ]

namespace FlashDevice

/-- A read of this length fails before a raw read has been served: the cursor is out of the range
of addresses, or the first raw read delivers nothing that can be used. -/
def FailsAtOnce (length : Nat) (window : Window) (device : FlashDevice ρ) : Prop :=
  UInt32.size ≤ window.position ∨ (device.firstCall length window).isSound = false

/-- A failure leaves the cursor where it was exactly when it comes at once. -/
theorem fetchFrom_failed {left done : Nat} {buffer : ByteArray} {window : Window}
    {device : FlashDevice ρ} (hroom : done + left ≤ buffer.size) {cause : Error}
    {buffer' : ByteArray} {window' : Window} {device' : FlashDevice ρ}
    (h : fetchFrom left done buffer (window, device) =
      ((.error cause, buffer'), (window', device'))) :
    ∃ taken, window' = window.advance taken ∧ taken < left ∧
      (taken = 0 ↔ device.FailsAtOnce left window) := by
  have hleft : 0 < left := by
    apply Nat.pos_of_ne_zero
    rintro rfl
    rw [fetchFrom_zero] at h
    cases h
  by_cases hhigh : UInt32.size ≤ window.position
  · rw [fetchFrom_outside done buffer hleft hhigh] at h
    cases h
    exact ⟨0, rfl, hleft, iff_of_true rfl (.inl hhigh)⟩
  cases hsound : (device.firstCall left window).isSound with
  | false =>
    rw [fetchFrom_refused done buffer hleft (Nat.lt_of_not_le hhigh) hsound] at h
    cases h
    exact ⟨0, rfl, hleft, iff_of_true rfl (.inr hsound)⟩
  | true =>
    rw [fetchFrom_served done buffer hleft (Nat.lt_of_not_le hhigh) hsound] at h
    obtain ⟨hpos, hle⟩ := count_firstCall hsound
    have hsize := size_claimed_firstCall hsound
    -- Whatever the rest of the loop did, it went on behind the first call.
    obtain ⟨served, failed, hrest⟩ := fetchFrom_fetched
      (left - (device.firstCall left window).count) (done + (device.firstCall left window).count)
      (Bytes.overlay buffer done (device.firstCall left window).claimed)
      (window.advance (device.firstCall left window).count) (device.afterFirst left window)
      (by rw [Bytes.size_overlay (by omega)]; omega)
    rw [h] at hrest
    have htotal : RawCall.total served < left - (device.firstCall left window).count := by
      rcases hrest.outcome with ⟨hok, -⟩ | ⟨-, htotal, -⟩
      · cases hok
      · exact htotal
    refine ⟨(device.firstCall left window).count + RawCall.total served, ?_, by omega,
      iff_of_false (by omega) ?_⟩
    · rw [← Window.advance_advance]
      exact hrest.window_eq
    · rintro (hout | hunsound)
      · exact hhigh hout
      · rw [hsound] at hunsound
        cases hunsound

theorem read_failed {length : Nat} {window : Window} {device : FlashDevice ρ} {cause : Error}
    {window' : Window} {device' : FlashDevice ρ}
    (h : read length (window, device) = .error cause (window', device')) :
    ∃ taken, window' = window.advance taken ∧ taken < length ∧
      (taken = 0 ↔ device.FailsAtOnce length window) := by
  have hfill : (Bytes.fill length 0).size = length := Bytes.size_fill ..
  rw [read] at h
  generalize hinto : readInto (Bytes.fill length 0) (window, device) = result at h
  obtain ⟨⟨outcome, buffer'⟩, state⟩ := result
  rw [readInto, hfill] at hinto
  cases outcome with
  | ok count => cases h
  | error cause' =>
    cases h
    exact fetchFrom_failed (Nat.le_of_eq ((Nat.zero_add _).trans hfill.symm)) hinto

end FlashDevice

namespace Pool

variable {pool : Pool (MemoryDevice ⊕ FlashDevice ρ)} {entity : Entity} {length : Nat}
  {window : Window} {cause : Error} {after : Pool (MemoryDevice ⊕ FlashDevice ρ)}
  (hread : Pool.read entity length pool = .error cause after)
include hread

theorem eq_of_read_closed (h : ¬ pool.IsOpen entity) : after = pool := by
  have hrefused : Pool.read entity length pool = .error .notFound pool :=
    onEntity_of_not_isOpen h _
  cases hread.symm.trans hrefused
  rfl

/-- A read of memory checks everything before it moves the cursor. -/
theorem eq_of_read_memory {device : MemoryDevice} (h : pool.Opens entity (.inl device) window) :
    after = pool := by
  have hresult := (read_of_opens h length).symm.trans hread
  by_cases hlength : length = 0 ∨ window.size < length
  · rw [if_pos hlength] at hresult
    cases hresult
    rfl
  · rw [if_neg hlength] at hresult
    simp only [Device.read, liftState, MemoryDevice.read] at hresult
    by_cases hinside : window.position + length ≤ device.memory.size
    · rw [if_pos hinside] at hresult
      cases hresult
    · rw [if_neg hinside] at hresult
      cases hresult
      exact h.place_self

theorem exists_taken_of_read_flash {device : FlashDevice ρ}
    (h : pool.Opens entity (.inr device) window) :
    ∃ device' taken, after = pool.place entity (.inr device') (window.advance taken) ∧
      (taken = 0 ∨ taken < length) ∧ (taken = 0 ↔
        length = 0 ∨ window.size < length ∨ device.FailsAtOnce length window) := by
  have hresult := (read_of_opens h length).symm.trans hread
  by_cases hlength : length = 0 ∨ window.size < length
  · rw [if_pos hlength] at hresult
    cases hresult
    exact ⟨device, 0, h.place_self.symm, .inl rfl,
      iff_of_true rfl (hlength.imp_right .inl)⟩
  · rw [if_neg hlength] at hresult
    simp only [Device.read, liftState] at hresult
    cases hdevice : FlashDevice.read length (window, device) with
    | ok bytes state =>
      rw [hdevice] at hresult
      cases hresult
    | error cause' state =>
      obtain ⟨window', device'⟩ := state
      rw [hdevice] at hresult
      cases hresult
      obtain ⟨taken, rfl, htaken, hiff⟩ := FlashDevice.read_failed hdevice
      obtain ⟨hsome, hfits⟩ := not_or.mp hlength
      refine ⟨device', taken, rfl, .inr htaken, hiff.trans ⟨fun hfails => .inr (.inr hfails), ?_⟩⟩
      exact fun hnone => (hnone.resolve_left hsome).resolve_left hfits

end Pool

/-- After a read that failed, an entity that is open on memory, or not open at all, is as it was,
and so is the rest of the pool. One that is open on a flash device has its cursor moved by what was
read before the failure: from a position that is a 64-bit word to another, since no buffer is longer
than memory can be. Its window is what it was, so that the read can be repeated, exactly when the
read was refused for its length or failed before a raw read was served. -/
theorem failed_read_keeps_window_iff {pool after : Pool (MemoryDevice ⊕ FlashDevice ρ)}
    {entity : Entity} {length : Nat} {cause : Error}
    (hread : Pool.read entity length pool = .error cause after) :
    (¬ pool.IsOpen entity → after = pool) ∧
    (∀ device window, pool.Opens entity (.inl device) window → after = pool) ∧
    ∀ device window, pool.Opens entity (.inr device) window →
      window.base + window.cursor < UInt64.size → length < 0x8000000000000000 →
      (∃ device' taken, after = pool.place entity (.inr device')
          { window with cursor := window.cursor + taken } ∧
        (taken = 0 ∨ taken < length) ∧ window.base + (window.cursor + taken) < UInt64.size) ∧
      (answerOf (Pool.window entity after) = .ok window ↔
        length = 0 ∨ window.size < length ∨ UInt32.size ≤ window.base + window.cursor ∨
          (device.firstCall length window).isSound = false) := by
  refine ⟨Pool.eq_of_read_closed hread, fun _ _ h => Pool.eq_of_read_memory hread h,
    fun device window h hposition hlength => ?_⟩
  obtain ⟨device', taken, rfl, htaken, hiff⟩ := Pool.exists_taken_of_read_flash hread h
  refine ⟨⟨device', taken, rfl, htaken, ?_⟩, ?_⟩
  · -- A cursor that has moved was in the range of 32-bit addresses before.
    rcases htaken with rfl | htaken
    · exact hposition
    by_cases hhigh : UInt32.size ≤ window.base + window.cursor
    · have hnone : taken = 0 := hiff.mpr (.inr (.inr (.inl hhigh)))
      subst hnone
      exact hposition
    · have hwords : UInt32.size + 0x8000000000000000 ≤ UInt64.size := by decide
      omega
  · rw [Pool.window_of_opens (Pool.opens_place (Pool.Binds.lt_length h))]
    refine Iff.trans ?_ hiff
    constructor
    · intro hsame
      exact Window.advance_eq_self_iff.mp (Except.ok.inj hsame)
    · rintro rfl
      rfl

/-- A pool with a window of four bytes on flash whose raw reads answer what a script says. -/
def scriptedPool (script : List (Except Error Nat)) :
    Pool (MemoryDevice ⊕ FlashDevice Bench.ScriptedFlash) :=
  ((Ledger.start 1).run [.register .flash,
    .deviceOpen (.inr (.scripted script)), .openWindow 0 ⟨0, 4⟩]).pool

/-- A raw read that fails at once leaves the window as it was. -/
theorem failed_read_keeps_window_iff_scriptedPool :
    let pool := scriptedPool [.error .transferTimeout]
    let after := stateAfter (Pool.read ⟨0, 7⟩ 2 pool)
    Pool.read ⟨0, 7⟩ 2 pool = .error .deviceFailure after ∧
      answerOf (Pool.window ⟨0, 7⟩ after) = .ok ⟨0, 4, 0⟩ := by
  intro pool after
  have hread : Pool.read ⟨0, 7⟩ 2 pool = .error .deviceFailure after := by
    dsimp only [after, pool]
    cbv
  have hopen : pool.Opens ⟨0, 7⟩ (.inr (.scripted [.error .transferTimeout])) ⟨0, 4, 0⟩ := rfl
  obtain ⟨-, -, hflash⟩ := failed_read_keeps_window_iff hread
  obtain ⟨-, hkept⟩ := hflash _ _ hopen (by decide) (by decide)
  exact ⟨hread, hkept.mpr (.inr (.inr (.inr rfl)))⟩

/-- A raw read that fails behind one that was served leaves the cursor moved, and the same read
again gives other bytes. -/
theorem failed_read_moves_cursor :
    let pool := scriptedPool [.ok 1, .error .transferTimeout]
    let after := stateAfter (Pool.read ⟨0, 7⟩ 2 pool)
    answerOf (Pool.window ⟨0, 7⟩ pool) = .ok ⟨0, 4, 0⟩ ∧
      Pool.read ⟨0, 7⟩ 2 pool = .error .deviceFailure after ∧
      answerOf (Pool.window ⟨0, 7⟩ after) = .ok ⟨0, 4, 1⟩ ∧
      (answerOf (Pool.read ⟨0, 7⟩ 2 after)).toOption = some (Bench.pattern 1 2) :=
  ⟨rfl, by cbv, by cbv, by decide +kernel⟩

end NorFlash.Block
