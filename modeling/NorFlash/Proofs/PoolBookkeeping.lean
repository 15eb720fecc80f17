import NorFlash.Block.Memory
import NorFlash.Proofs.PoolLedger

/-!
The bookkeeping of a pool over every run: its count, the keys of its slots, the handles that are
held, and what a call on it may change.
-/
namespace NorFlash.Block

variable {δ : Type}

namespace Pool

/-- An operation that fails leaves the pool as it was. -/
def Atomic {α : Type} (action : EStateM Error (Pool δ) α) : Prop :=
  ∀ pool cause after, action pool = .error cause after → after = pool

theorem atomic_register (kind : DeviceKind) :
    Atomic (register kind : EStateM Error (Pool δ) _) := by
  intro pool cause after hfails
  rcases register_cases kind pool with h | h | h <;> cases h.symm.trans hfails
  rfl

theorem atomic_close (entity : Entity) : Atomic (close entity : EStateM Error (Pool δ) _) := by
  intro pool cause after hfails
  by_cases hopen : pool.IsOpen entity
  · obtain ⟨device, window, hopen⟩ := hopen
    cases (close_of_opens hopen).symm.trans hfails
  · cases (close_of_not_isOpen hopen).symm.trans hfails
    rfl

variable [Device δ]

theorem atomic_deviceClose (handle : Handle) :
    Atomic (deviceClose handle : EStateM Error (Pool δ) _) := by
  intro pool cause after hfails
  by_cases hnames : pool.Names handle.index handle.key
  · obtain ⟨slot, hslot, hkey⟩ := hnames
    cases (deviceClose_of_binds hslot hkey).symm.trans hfails
  · cases (deviceClose_of_not_names hnames).symm.trans hfails
    rfl

theorem atomic_openWindow (handle : Handle) (region : Region) :
    Atomic (openWindow handle region : EStateM Error (Pool δ) _) := by
  intro pool cause after hfails
  rcases openWindow_cases handle region pool with ⟨cause, h⟩ | ⟨device, -, -, h⟩
  · cases h.symm.trans hfails
    rfl
  · cases h.symm.trans hfails

/-- A check leaves the pool as it was, whatever it finds. -/
theorem stateAfter_check (handle : Handle) (region : Region) (pool : Pool δ) :
    stateAfter (check handle region pool) = pool := by
  rw [check_eq]
  cases openWindow handle region pool <;> rfl

theorem atomic_check (handle : Handle) (region : Region) :
    Atomic (check handle region : EStateM Error (Pool δ) _) := by
  intro pool cause after hfails
  have hstate := stateAfter_check handle region pool
  rw [hfails] at hstate
  exact hstate

end Pool

variable [Device δ]

namespace Ledger

variable {ledger after : Ledger δ} {cause : Error}

/-- A read or write through an entity that its device has failed. -/
def DeviceFails (ledger : Ledger δ) (cause : Error) (call : PoolCall δ) : Prop :=
  ∃ place entityCall entity device window, call = .use place entityCall ∧
    ledger.entity? place = some entity ∧ ledger.pool.Opens entity device window ∧
    entityCall.FailsOn device window cause

omit [Device δ] in
theorem pool_of_onPool_error {α : Type} {action : EStateM Error (Pool δ) α}
    {record : α → Ledger δ → Ledger δ} (hatomic : Pool.Atomic action)
    (h : ledger.onPool action record = (.error cause, after)) : after.pool = ledger.pool := by
  rw [onPool] at h
  cases haction : action ledger.pool with
  | ok value pool =>
    rw [haction] at h
    cases h
  | error cause pool =>
    rw [haction] at h
    cases h
    exact hatomic _ _ _ haction

/-- A call through an entity that fails changes nothing unless it came to the device. -/
theorem pool_of_use_error {place : Nat} {call : EntityCall}
    (h : ledger.perform (.use place call) = (.error cause, after)) :
    after.pool = ledger.pool ∨ ledger.DeviceFails cause (.use place call) := by
  rw [perform] at h
  cases hissued : ledger.entity? place with
  | none =>
    rw [hissued] at h
    cases h
  | some entity =>
    rw [hissued] at h
    dsimp only at h
    by_cases hopen : ledger.pool.IsOpen entity
    · obtain ⟨device, window, hopen⟩ := hopen
      have houtcome := EntityCall.outcome_perform hopen call
      rw [onPool] at h
      generalize call.perform entity ledger.pool = result at houtcome h
      cases houtcome with
      | done device' window' leads => cases h
      | refused cause =>
        cases h
        exact .inl rfl
      | failed cause device' window' leads fails =>
        cases h
        exact .inr ⟨place, call, entity, device, window, rfl, hissued, hopen, fails⟩
    · rw [onPool_of_error (EntityCall.perform_of_not_isOpen hopen call)] at h
      cases h
      exact .inl rfl

/-- A call that fails leaves the pool as it was, unless it is a read or write that the device
itself has failed. -/
theorem pool_of_perform_error {call : PoolCall δ}
    (h : ledger.perform call = (.error cause, after)) :
    after.pool = ledger.pool ∨ ledger.DeviceFails cause call := by
  cases call with
  | use place call => exact pool_of_use_error h
  | register kind =>
    rw [perform] at h
    exact .inl (pool_of_onPool_error (Pool.atomic_register kind) h)
  | deviceOpen device =>
    rw [perform] at h
    split at h
    · cases h
    next rejected pool hopen =>
      cases h
      exact .inl (Pool.deviceOpen_error_iff.mp hopen).2
  | deviceClose place =>
    rw [perform] at h
    split at h
    · cases h
    next handle _ =>
      have hpool := pool_of_onPool_error (Pool.atomic_deviceClose handle) h
      exact .inl hpool
  | openWindow place region =>
    rw [perform] at h
    split at h
    · cases h
    next handle _ => exact .inl (pool_of_onPool_error (Pool.atomic_openWindow handle region) h)
  | check place region =>
    rw [perform] at h
    split at h
    · cases h
    next handle _ => exact .inl (pool_of_onPool_error (Pool.atomic_check handle region) h)
  | close place =>
    rw [perform] at h
    split at h
    · cases h
    next entity _ =>
      have hpool := pool_of_onPool_error (Pool.atomic_close entity) h
      exact .inl hpool

/-- In every run of a fresh pool, the count is that of the bound slots, no two of which have the
same key, and each handle that is held names the slot of the device it was issued for, which no
other handle does. Devices are bound and handed back as they should be, a seek moves the cursor of
its entity alone, and a failure that is not that of a device changes nothing. -/
theorem pool_bookkeeping (slots : Nat) (calls : List (PoolCall δ)) :
    let ledger := (Ledger.start slots : Ledger δ).run calls
    let pool := ledger.pool
    (pool.size = pool.slots.countP (·.isSome) ∧ pool.slots.length = slots ∧ pool.size ≤ slots) ∧
    (∀ i j a b, pool.Binds i a → pool.Binds j b → a.key = b.key → i = j) ∧
    (∀ (place : Nat) (handle : Handle) (device : δ),
      ledger.handles[place]? = some (some (handle, device)) → ∃ slot,
        pool.Binds handle.index slot ∧ slot.key = handle.key ∧
        Device.Leads device slot.device) ∧
    (∀ (i j : Nat) (a b : Handle × δ), ledger.handles[i]? = some (some a) →
      ledger.handles[j]? = some (some b) → a.1.index = b.1.index → i = j) ∧
    (∀ device handle after, Pool.deviceOpen device pool = .ok handle after ↔
      ∃ started, pool.Accepts device started handle.index ∧
        handle.key = Device.key started ∧ after = pool.take handle.index started) ∧
    (∀ device rejected after, Pool.deviceOpen device pool = .error rejected after ↔
      pool.Refuses device rejected ∧ after = pool) ∧
    (∀ entity device window, pool.Opens entity device window →
      ∀ mode (offset : Int64) after, Pool.seek entity mode offset.toInt pool = .ok () after ↔
        ∃ target, mode.target window offset.toInt = some target ∧ window.Admits target ∧
          after = pool.place entity device { window with cursor := target.toNat }) ∧
    (∀ handle region, stateAfter (Pool.check handle region pool) = pool) ∧
    (∀ call cause after, ledger.perform call = (.error cause, after) →
      after.pool = pool ∨ ledger.DeviceFails cause call) := by
  intro ledger pool
  have hconsistent : Consistent slots ledger := consistent_run slots calls
  have hbound : pool.size ≤ slots := by
    rw [hconsistent.size, ← hconsistent.length]
    exact List.countP_le_length
  refine ⟨⟨hconsistent.size, hconsistent.length, hbound⟩, ?_, ?_, ?_, ?_, ?_, ?_, ?_, ?_⟩
  · exact fun i j a b => hconsistent.distinct
  · exact fun place handle device => hconsistent.handles
  · exact fun i j a b => hconsistent.separate
  · exact fun device handle after => Pool.deviceOpen_ok_iff
  · exact fun device rejected after => Pool.deviceOpen_error_iff
  · intro entity device window hopen mode offset after
    have hsigned := offset.toInt_lt
    exact Pool.seek_ok_iff hopen (by omega)
  · exact fun handle region => Pool.stateAfter_check handle region pool
  · exact fun call cause after hfails => pool_of_perform_error hfails

/-- In a window of nearly all addresses, a relative seek to a position inside it is refused that
is no signed 64-bit number. -/
theorem seek_refused_beyond_signed :
    let ledger := (Ledger.start 1 : Ledger MemoryDevice).run
      [.register .memory, .deviceOpen ⟨0, .empty⟩, .openWindow 0 ⟨0, 0xFFFFFFFFFFFFFFFF⟩,
        .use 0 (.seek .set Int64.maxValue)]
    let window : Window := ⟨0, 0xFFFFFFFFFFFFFFFF, 0x7FFFFFFFFFFFFFFF⟩
    ledger.pool.Opens ⟨0, 0⟩ ⟨0, .empty⟩ window ∧
    (0 ≤ (window.cursor : Int) + 1 ∧ (window.cursor : Int) + 1 < window.size) ∧
    Pool.seek ⟨0, 0⟩ .current 1 ledger.pool = .error .invalidArgument ledger.pool := by
  refine ⟨rfl, by decide, rfl⟩

end Ledger

end NorFlash.Block
