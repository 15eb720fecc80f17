import NorFlash.Emulation.Chip
import NorFlash.Proofs.Bytes

/-!
Changes confined to a range of an array. A page program and an erase of the emulated part are
such changes: to the range that they are meant for, as long as neither a page nor the array is
left, and else still to one page or unit. Adjoining changes make one.
-/
namespace NorFlash

/-- Byte `i` of the range becomes `f i` of what it was, and the other bytes stay. -/
structure Rewrites (f : Nat → UInt8 → UInt8) (start stop : Nat) (before after : ByteArray) :
    Prop where
  size : after.size = before.size
  inside {i : Nat} : start ≤ i → i < stop → Bytes.byteAt after i = f i (Bytes.byteAt before i)
  outside {i : Nat} : i < start ∨ stop ≤ i → Bytes.byteAt after i = Bytes.byteAt before i

namespace Rewrites

variable {f g : Nat → UInt8 → UInt8} {start middle stop : Nat} {before between after : ByteArray}

theorem refl (f : Nat → UInt8 → UInt8) (place : Nat) (memory : ByteArray) :
    Rewrites f place place memory memory :=
  ⟨rfl, fun _ _ => by omega, fun _ => rfl⟩

theorem trans (h : Rewrites f start middle before between)
    (h' : Rewrites f middle stop between after) (hstart : start ≤ middle) (hstop : middle ≤ stop) :
    Rewrites f start stop before after where
  size := h'.size.trans h.size
  inside {i} hi hi' := by
    by_cases hmiddle : i < middle
    · rw [h'.outside (.inl hmiddle), h.inside hi hmiddle]
    · rw [h'.inside (by omega) hi', h.outside (.inr (by omega))]
  outside {i} hi := by
    rw [h'.outside (by omega), h.outside (by omega)]

theorem congr (h : Rewrites f start stop before after)
    (hfg : ∀ i byte, start ≤ i → i < stop → f i byte = g i byte) :
    Rewrites g start stop before after where
  size := h.size
  inside hi hi' := by rw [h.inside hi hi', hfg _ _ hi hi']
  outside := h.outside

/-- A range that is rewritten once more. -/
theorem comp (h : Rewrites f start stop before between) (h' : Rewrites g start stop between after) :
    Rewrites (fun i byte => g i (f i byte)) start stop before after where
  size := h'.size.trans h.size
  inside hi hi' := by rw [h'.inside hi hi', h.inside hi hi']
  outside hi := (h'.outside hi).trans (h.outside hi)

end Rewrites

/-- Bits of a range are cleared, and nothing else is changed. -/
def Clears (start stop : Nat) (before after : ByteArray) : Prop :=
  ∃ mask : Nat → UInt8, Rewrites (fun i byte => byte &&& mask i) start stop before after

namespace Clears

variable {start stop : Nat} {before between after : ByteArray}

theorem size (h : Clears start stop before after) : after.size = before.size := by
  obtain ⟨mask, h⟩ := h
  exact h.size

theorem refl (start stop : Nat) (memory : ByteArray) : Clears start stop memory memory :=
  ⟨fun _ => -1, rfl, fun _ _ => UInt8.and_neg_one.symm, fun _ => rfl⟩

theorem trans (h : Clears start stop before between) (h' : Clears start stop between after) :
    Clears start stop before after := by
  obtain ⟨mask, h⟩ := h
  obtain ⟨mask', h'⟩ := h'
  exact ⟨fun i => mask i &&& mask' i, (h.comp h').congr fun _ _ _ _ => UInt8.and_assoc ..⟩

theorem set {memory : ByteArray} {place : Nat} (hplace : place < memory.size) (hlow : start ≤ place)
    (hhigh : place < stop) (byte : UInt8) :
    Clears start stop memory (memory.set! place (Bytes.byteAt memory place &&& byte)) := by
  have hset := Bytes.byteAt_set! memory hplace (Bytes.byteAt memory place &&& byte)
  refine ⟨fun i => if i = place then byte else -1, Bytes.size_set! .., fun {i} hi hi' => ?_,
    fun {i} hi => ?_⟩
  · dsimp only
    rw [hset]
    by_cases hsame : i = place
    · rw [if_pos hsame, if_pos hsame, hsame]
    · rw [if_neg hsame, if_neg hsame, UInt8.and_neg_one]
  · rw [hset, if_neg (by omega)]

end Clears

namespace Emulation.Chip

/-- The place of a byte in the page of its address, when the page is not left. -/
theorem wrap_eq {pageSize address i : Nat} (h : i < max 1 (pageSize - address % pageSize)) :
    address - address % pageSize + (address + i) % pageSize = address + i := by
  have hle := Nat.mod_le address pageSize
  by_cases hi : i = 0
  · subst hi
    simp only [Nat.add_zero]
    omega
  · have hpage : address % pageSize + i < pageSize := by omega
    rw [← Nat.mod_add_mod, Nat.mod_eq_of_lt hpage]
    omega

theorem rewrites_programFrom {pageSize address : Nat} {bytes : ByteArray}
    (hpage : bytes.size ≤ max 1 (pageSize - address % pageSize)) (left i : Nat)
    (hleft : i + left = bytes.size) (memory : ByteArray)
    (hin : address + bytes.size ≤ memory.size) :
    Rewrites (fun place byte => byte &&& Bytes.byteAt bytes (place - address)) (address + i)
      (address + bytes.size) memory (programFrom pageSize address bytes left i memory) := by
  induction left generalizing i memory with
  | zero =>
    rw [← hleft]
    exact Rewrites.refl ..
  | succ left ih =>
    have hplace : (address - address % pageSize + (address + i) % pageSize) % memory.size =
        address + i := by
      rw [wrap_eq (by omega), Nat.mod_eq_of_lt (by omega)]
    let byte := Bytes.byteAt memory (address + i) &&& Bytes.byteAt bytes i
    have hstep : Rewrites (fun place byte => byte &&& Bytes.byteAt bytes (place - address))
        (address + i) (address + i + 1) memory (memory.set! (address + i) byte) := by
      have hset := Bytes.byteAt_set! memory (show address + i < memory.size by omega) byte
      refine ⟨Bytes.size_set! .., fun {j} hj hj' => ?_, fun {j} hj => ?_⟩
      · obtain rfl : j = address + i := by omega
        rw [hset, if_pos rfl, Nat.add_sub_cancel_left]
      · rw [hset, if_neg (by omega)]
    have hrest := ih (i + 1) (by omega) (memory.set! (address + i) byte)
      (by rwa [Bytes.size_set!])
    unfold programFrom
    simp only [hplace]
    exact hstep.trans hrest (by omega) (by omega)

theorem rewrites_program {pageSize address : Nat} {bytes memory : ByteArray}
    (hpage : bytes.size ≤ max 1 (pageSize - address % pageSize))
    (hin : address + bytes.size ≤ memory.size) :
    Rewrites (fun place byte => byte &&& Bytes.byteAt bytes (place - address)) address
      (address + bytes.size) memory (programFrom pageSize address bytes bytes.size 0 memory) :=
  rewrites_programFrom hpage bytes.size 0 (Nat.zero_add _) memory hin

theorem rewrites_eraseUnit {unit address : Nat} {memory : ByteArray} (hunit : 0 < unit)
    (haligned : address % unit = 0) (hin : address + unit ≤ memory.size) :
    Rewrites (fun _ _ => 0xff) address (address + unit) memory (eraseUnit unit address memory) := by
  have herase : eraseUnit unit address memory =
      Bytes.overlay memory address (Bytes.fill unit 0xff) := by
    simp only [eraseUnit, Nat.mod_eq_of_lt (show address < memory.size by omega), haligned,
      Nat.sub_zero, Nat.min_eq_left hin, Nat.add_sub_cancel_left]
  have hroom : address + (Bytes.fill unit 0xff).size ≤ memory.size := by rwa [Bytes.size_fill]
  rw [herase]
  refine ⟨Bytes.size_overlay hroom, fun {i} hi hi' => ?_, fun {i} hi => ?_⟩
  · rw [Bytes.byteAt_overlay hroom, Bytes.size_fill, if_pos ⟨hi, hi'⟩, Bytes.byteAt_fill,
      if_pos (by omega)]
  · rw [Bytes.byteAt_overlay hroom, Bytes.size_fill, if_neg (by omega)]

section Units

variable {unit size : Nat} (hunit : 0 < unit) (hdvd : unit ∣ size) (hsize : 0 < size)
include hunit hdvd hsize

/-- The unit of an address, in an array that is made of whole units and that addresses wrap around
in: where it starts, and that its bytes follow one another in the array. -/
theorem unit_wraps (address : Nat) :
    let start := (address - address % unit) % size
    start % unit = 0 ∧ start + unit ≤ size ∧
      ∀ i < unit, (address - address % unit + i) % size = start + i := by
  intro start
  obtain ⟨count, rfl⟩ := hdvd
  have hcount : 0 < count := Nat.pos_of_mul_pos_left hsize
  have haligned : address - address % unit = unit * (address / unit) := by
    have hsplit := Nat.mod_add_div address unit
    omega
  have hstart : start = unit * (address / unit % count) := by
    dsimp only [start]
    rw [haligned, Nat.mul_mod_mul_left]
  have hlast : address / unit % count + 1 ≤ count := Nat.mod_lt _ hcount
  refine ⟨?_, ?_, fun i hi => ?_⟩
  · rw [hstart, Nat.mul_mod_right]
  · rw [hstart, ← Nat.mul_succ]
    exact Nat.mul_le_mul_left unit hlast
  · rw [haligned, Nat.mod_mul, Nat.mul_add_mod, Nat.mod_eq_of_lt hi, Nat.mul_add_div hunit,
      Nat.div_eq_of_lt hi, Nat.add_zero, hstart, Nat.add_comm]

/-- However long it is, a program stays in one page. -/
theorem clears_programFrom (address : Nat) (bytes : ByteArray) (left i : Nat) {memory : ByteArray}
    (hmemory : memory.size = size) :
    let start := (address - address % unit) % size
    Clears start (start + unit) memory (programFrom unit address bytes left i memory) := by
  intro start
  induction left generalizing i memory with
  | zero => exact .refl ..
  | succ left ih =>
    obtain ⟨-, hfits, hplace⟩ := unit_wraps hunit hdvd hsize address
    have hinside : (address + i) % unit < unit := Nat.mod_lt _ hunit
    have htarget : (address - address % unit + (address + i) % unit) % memory.size =
        start + (address + i) % unit := by
      rw [hmemory]
      exact hplace _ hinside
    rw [programFrom, htarget]
    refine Clears.trans (.set ?_ (Nat.le_add_right ..) (by omega) _) (ih (i + 1) ?_)
    · omega
    · rw [Bytes.size_set!, hmemory]

/-- An erase sets the unit that its address lies in. -/
theorem rewrites_eraseUnit_wrapped (address : Nat) {memory : ByteArray}
    (hmemory : memory.size = size) :
    let start := address % size - address % size % unit
    start % unit = 0 ∧ start + unit ≤ size ∧
      Rewrites (fun _ _ => 0xff) start (start + unit) memory (eraseUnit unit address memory) := by
  intro start
  have hlow : start < size := Nat.lt_of_le_of_lt (Nat.sub_le ..) (Nat.mod_lt _ hsize)
  obtain ⟨haligned, hfits, -⟩ := unit_wraps hunit hdvd hsize (address % size)
  rw [Nat.mod_eq_of_lt hlow] at haligned hfits
  have hsame : eraseUnit unit address memory = eraseUnit unit start memory := by
    have hwrapped : start % memory.size = start := Nat.mod_eq_of_lt (by rwa [hmemory])
    simp only [eraseUnit]
    rw [hwrapped, haligned, Nat.sub_zero, hmemory]
  rw [hsame]
  exact ⟨haligned, hfits, rewrites_eraseUnit hunit haligned (by rwa [hmemory])⟩

end Units

end Emulation.Chip

end NorFlash
