import NorFlash.Block.Basic

/-!
A pool with a fixed number of device slots. A device is bound to the lowest free slot and released
by its handle; each bound device has at most one open entity, a window with a cursor. Handles and
entities name a slot and the key of its device.
-/
namespace NorFlash.Block

structure Slot (δ : Type) where
  key : Nat
  device : δ
  window : Option Window

structure Handle where
  index : Nat
  key : Nat
  deriving DecidableEq, Repr, Inhabited

structure Entity where
  index : Nat
  key : Nat
  deriving DecidableEq, Repr, Inhabited

/-- A device that was not bound, with the reason. -/
structure Rejected (δ : Type) where
  cause : Error
  device : δ

structure Pool (δ : Type) where
  slots : List (Option (Slot δ))
  /-- The kinds of devices that the pool takes. -/
  registered : List DeviceKind
  /-- The number of bound slots. -/
  size : Nat

namespace Pool

variable {δ : Type}

/-- Kinds of devices that may be registered. -/
def maxKinds : Nat := 3

/-- A pool of free slots that takes no device yet. -/
def empty (slots : Nat) : Pool δ :=
  ⟨List.replicate slots none, [], 0⟩

def isRegistered (kind : DeviceKind) (pool : Pool δ) : Bool :=
  pool.registered.contains kind

/-- Lets the pool take devices of a kind; doing so again changes nothing. -/
def register (kind : DeviceKind) : EStateM Error (Pool δ) Unit
  | pool =>
    if pool.isRegistered kind then
      .ok () pool
    else if pool.registered.length < maxKinds then
      .ok () { pool with registered := kind :: pool.registered }
    else
      .error .noSpace pool

/-- The slot that a key is bound to. -/
def find? (key : Nat) (pool : Pool δ) : Option Nat :=
  pool.slots.findIdx? (·.any (·.key = key))

/-- The lowest free slot. -/
def free? (pool : Pool δ) : Option Nat :=
  pool.slots.findIdx? (·.isNone)

/-- Runs an operation on the slot that an index and a key name. -/
def onSlot {α : Type} (index key : Nat) (action : EStateM Error (Slot δ) α) :
    EStateM Error (Pool δ) α
  | ⟨slots, registered, size⟩ =>
    match slots[index]? with
    | some (some slot) =>
      if slot.key = key then
        let rest := slots.set index none
        match action slot with
        | .ok value slot => .ok value ⟨rest.set index (some slot), registered, size⟩
        | .error cause slot => .error cause ⟨rest.set index (some slot), registered, size⟩
      else
        .error .notFound ⟨slots, registered, size⟩
    | _ => .error .notFound ⟨slots, registered, size⟩

/-- Runs an operation on the window and device of an open entity. -/
def onEntity {α : Type} (entity : Entity) (action : EStateM Error (Window × δ) α) :
    EStateM Error (Pool δ) α :=
  onSlot entity.index entity.key fun
    | ⟨key, device, none⟩ => .error .notFound ⟨key, device, none⟩
    | ⟨key, device, some window⟩ =>
      match action (window, device) with
      | .ok value (window, device) => .ok value ⟨key, device, some window⟩
      | .error cause (window, device) => .error cause ⟨key, device, some window⟩

variable [Device δ]

/-- Binds a device to the lowest free slot. A device whose kind is not registered, that fails its
own check, whose key is bound, or for which no slot is free is handed back. -/
def deviceOpen (device : δ) : EStateM (Rejected δ) (Pool δ) Handle
  | pool =>
    if !pool.isRegistered (Device.kind device) then
      .error ⟨.notRegistered, device⟩ pool
    else
      match Device.start device with
      | .error _ device => .error ⟨.invalidArgument, device⟩ pool
      | .ok _ device =>
        let key := Device.key device
        if (pool.find? key).isSome then
          .error ⟨.busy, device⟩ pool
        else
          match pool.free? with
          | none => .error ⟨.noSpace, device⟩ pool
          | some index =>
            .ok ⟨index, key⟩ { pool with
              slots := pool.slots.set index (some ⟨key, device, none⟩)
              size := pool.size + 1 }

/-- Releases the slot of a handle and gives its device back. -/
def deviceClose (handle : Handle) : EStateM Error (Pool δ) δ
  | ⟨slots, registered, size⟩ =>
    match slots[handle.index]? with
    | some (some slot) =>
      if slot.key = handle.key then
        .ok (Device.stop slot.device) ⟨slots.set handle.index none, registered, size - 1⟩
      else
        .error .notFound ⟨slots, registered, size⟩
    | _ => .error .notFound ⟨slots, registered, size⟩

/-- Opens a window on a device, which has to be aligned to its pages and the only one. -/
def openWindow (handle : Handle) (region : Region) : EStateM Error (Pool δ) Entity :=
  onSlot handle.index handle.key fun
    | ⟨key, device, window⟩ =>
      if !region.isAligned (Device.pageSize device) then
        .error .invalidArgument ⟨key, device, window⟩
      else if window.isSome then
        .error .busy ⟨key, device, window⟩
      else
        .ok ⟨handle.index, handle.key⟩ ⟨key, device, some (.ofRegion region)⟩

/-- A 64-bit word read as a signed number. -/
def signed (n : Nat) : Int :=
  if n < 0x8000000000000000 then n else n - UInt64.size

/-- A signed 64-bit sum, unless it overflows. -/
def checkedAdd (a b : Int) : Except Error Int :=
  if -0x8000000000000000 ≤ a + b ∧ a + b < 0x8000000000000000 then .ok (a + b)
  else .error .invalidArgument

/-- Moves the cursor of an entity to a position inside its window. -/
def seek (entity : Entity) (mode : SeekMode) (offset : Int) : EStateM Error (Pool δ) Unit :=
  onEntity entity fun (window, device) =>
    let target : Except Error Int := match mode with
      | .set => .ok offset
      | .current => checkedAdd (signed window.cursor) offset
      | .fromEnd => .error .invalidArgument
    match target with
    | .error cause => .error cause (window, device)
    | .ok target =>
      if target < 0 ∨ (window.size : Int) ≤ target then
        .error .invalidArgument (window, device)
      else
        .ok () ({ window with cursor := target.toNat }, device)

/-- Reads `length` bytes at the cursor, at least one and no more than the size of the window. The
cursor is not taken into account, so the read may go past the end of the window. -/
def read (entity : Entity) (length : Nat) : EStateM Error (Pool δ) ByteArray :=
  onEntity entity fun (window, device) =>
    if length = 0 ∨ window.size < length then
      .error .invalidArgument (window, device)
    else
      Device.read length (window, device)

/-- Writes at the cursor and gives the count of bytes written. -/
def write (entity : Entity) (bytes : ByteArray) : EStateM Error (Pool δ) Nat :=
  onEntity entity (Device.write bytes)

omit [Device δ] in
/-- The window of an open entity. -/
def window (entity : Entity) : EStateM Error (Pool δ) Window :=
  onEntity entity fun (window, device) => .ok window (window, device)

omit [Device δ] in
/-- Closes an entity and leaves its device bound. -/
def close (entity : Entity) : EStateM Error (Pool δ) Unit :=
  onSlot entity.index entity.key fun
    | ⟨key, device, none⟩ => .error .notFound ⟨key, device, none⟩
    | ⟨key, device, some _⟩ => .ok () ⟨key, device, none⟩

/-- Opens a region and closes it again. -/
def check (handle : Handle) (region : Region) : EStateM Error (Pool δ) Unit := do
  let entity ← openWindow handle region
  close entity

end Pool

end NorFlash.Block
