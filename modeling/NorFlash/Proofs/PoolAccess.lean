import NorFlash.Proofs.PoolSlots

/-!
The operations of a pool on the device in its first slot, from its binding to its release.
-/
namespace NorFlash.Block.Pool

variable {δ : Type}

/-- A pool with a device in its first slot, and no other. -/
def holding (key : Nat) (device : δ) (window : Option Window) (rest : List (Option (Slot δ)))
    (registered : List DeviceKind) : Pool δ :=
  ⟨some ⟨key, device, window⟩ :: rest, registered, 1⟩

variable {key : Nat} {device : δ} {window : Window} {rest : List (Option (Slot δ))}
  {registered : List DeviceKind}

theorem onEntity_of_ok {α : Type} {action : EStateM Error (Window × δ) α} {value : α}
    {window' : Window} {device' : δ}
    (h : action (window, device) = .ok value (window', device')) :
    onEntity ⟨0, key⟩ action (holding key device (some window) rest registered) =
      .ok value (holding key device' (some window') rest registered) :=
  @onEntity_place _ _ ⟨none :: rest, registered, 1⟩ ⟨0, key⟩ _ _ _ _ (Nat.succ_pos _) _ _ h

theorem close_holding :
    close ⟨0, key⟩ (holding key device (some window) rest registered) =
      .ok () (holding key device none rest registered) := by
  simp only [close, onSlot, holding, List.getElem?_cons_zero, ↓reduceIte, List.set_cons_zero]

theorem seek_holding {offset : Nat} (hin : offset < window.size) :
    seek ⟨0, key⟩ .set offset (holding key device (some window) rest registered) =
      .ok () (holding key device (some { window with cursor := offset }) rest registered) := by
  apply onEntity_of_ok
  dsimp only
  rw [if_neg (by omega)]
  rfl

variable [Device δ]

omit [Device δ] in
theorem register_empty (kind : DeviceKind) (slots : Nat) :
    register kind (empty slots : Pool δ) = .ok () ⟨List.replicate slots none, [kind], 0⟩ := by
  simp [register, isRegistered, empty, maxKinds]

/-- A device that passes its own check is bound to the first of the free slots. -/
theorem deviceOpen_free {slots : Nat} (hstart : Device.start device = .ok () device) :
    deviceOpen device ⟨List.replicate (slots + 1) none, [Device.kind device], 0⟩ =
      .ok ⟨0, Device.key device⟩
        (holding (Device.key device) device none (List.replicate slots none)
          [Device.kind device]) := by
  have hfind : find? (Device.key device)
      (⟨none :: List.replicate slots none, [Device.kind device], 0⟩ : Pool δ) = none := by
    simp [find?, List.findIdx?_cons]
  have hfree : free? (⟨none :: List.replicate slots none, [Device.kind device], 0⟩ : Pool δ) =
      some 0 := rfl
  rw [List.replicate_succ]
  simp only [deviceOpen, isRegistered, List.contains_cons, BEq.rfl, Bool.true_or, Bool.not_true,
    Bool.false_eq_true, ↓reduceIte, hstart, hfind, hfree, Option.isSome_none, holding,
    List.set_cons_zero]

theorem openWindow_holding {region : Region}
    (haligned : region.isAligned (Device.pageSize device) = true) :
    openWindow ⟨0, key⟩ region (holding key device none rest registered) =
      .ok ⟨0, key⟩ (holding key device (some (.ofRegion region)) rest registered) := by
  simp only [openWindow, onSlot, holding, List.getElem?_cons_zero, ↓reduceIte, haligned,
    Bool.not_true, Bool.false_eq_true, Option.isSome_none, List.set_cons_zero]

theorem read_holding {length : Nat} (hpos : 0 < length) (hle : length ≤ window.size)
    {bytes : ByteArray} {window' : Window} {device' : δ}
    (h : Device.read length (window, device) = .ok bytes (window', device')) :
    read ⟨0, key⟩ length (holding key device (some window) rest registered) =
      .ok bytes (holding key device' (some window') rest registered) := by
  apply onEntity_of_ok
  dsimp only
  rw [if_neg (by omega)]
  exact h

theorem deviceClose_holding :
    deviceClose ⟨0, key⟩ (holding key device none rest registered) =
      .ok (Device.stop device) ⟨none :: rest, registered, 0⟩ := by
  simp only [deviceClose, holding, List.getElem?_cons_zero, ↓reduceIte, List.set_cons_zero]

end NorFlash.Block.Pool
