import NorFlash.Bench.ScriptedFlash
import NorFlash.Bench.TrialBus
import NorFlash.Block.Memory
import NorFlash.Package

/-!
A session on two pools. Handles and entities are known by the order in which they were issued, and
a step that names one that the session does not hold changes nothing. A step that breaks the bus of
a device goes no further.
-/
namespace NorFlash.Bench

open NorFlash.Block

/-- Raw flash of a session: scripted, or a flash driver. -/
abbrev TrialFlash (β : Type) := ScriptedFlash ⊕ Driver β

abbrev TrialDevice (β : Type) := MemoryDevice ⊕ FlashDevice (TrialFlash β)

inductive StreamStep where
  | read (length : Nat)
  | exact (length : Nat)
  | seek (target : SeekFrom)
  | position

inductive StreamAnswer where
  | failed (cause : Error)
  | bytes (bytes : ByteArray)
  | exact (bytes : ByteArray)
  /-- The stream ended before all bytes were read. -/
  | ended
  | position (n : Nat)

inductive PoolStep where
  | register (kind : DeviceKind)
  | isRegistered (kind : DeviceKind)
  | find (device : Nat)
  /-- A device that is refused is given up if `discard` is set. -/
  | deviceOpen (device : Nat) (discard : Bool)
  | deviceClose
  | openWindow (region : Region)
  | check (region : Region)
  | seek (mode : SeekMode) (offset : Int)
  | read (length : Nat)
  | write (bytes : ByteArray)
  | window
  | close
  | stream (steps : List StreamStep)
  | contents (length : Nat)
  | findImage (uuid : List UInt8)
  /-- An image of the contents read last. -/
  | image (index capacity : Nat)
  | imageAt (offset size capacity : Nat)

/-- The pool, handle and entity that a step is about. -/
structure Target where
  pool : Nat := 0
  handle : Nat := 0
  entity : Nat := 0

inductive PoolAnswer where
  /-- The session does not hold what the step names. -/
  | gone
  /-- The bus of a device broke. -/
  | broken
  | failed (cause : Error)
  | discarded (cause : Error)
  | done
  | truth (value : Bool)
  | place (slot : Option Nat)
  | bound (handle slot : Nat)
  | opened (entity : Nat)
  | count (n : Nat)
  /-- Bytes for a buffer of some capacity. -/
  | bytes (capacity : Nat) (bytes : ByteArray)
  | window (window : Window)
  | stream (answers : List StreamAnswer)
  | contents (entries : List Package.Entry)
  | entry (entry : Option Package.Entry)

structure PoolSession (β : Type) where
  pools : List (Pool (TrialDevice β))
  /-- Devices that are not bound. -/
  held : List (Option (TrialDevice β))
  keys : List Nat
  /-- Devices given up. -/
  released : List (TrialDevice β) := []
  handles : List (Option Handle) := []
  entities : List (Option Entity) := []
  /-- The table of contents read last. -/
  contents : List Package.Entry := []

namespace PoolSession

variable {β : Type}

/-- A session on two pools of so many slots. -/
def create (slots : Nat) (devices : List (TrialDevice β)) (keys : List Nat) : PoolSession β where
  pools := [Pool.empty slots, Pool.empty slots]
  held := devices.map some
  keys := keys

def pool (session : PoolSession β) (i : Nat) : Pool (TrialDevice β) :=
  session.pools.getD i (Pool.empty 0)

/-- Runs an operation on one of the pools. -/
def onPool {ε α : Type} (i : Nat) (action : EStateM ε (Pool (TrialDevice β)) α)
    (session : PoolSession β) : Except ε α × PoolSession β :=
  let pool := session.pool i
  let session := { session with pools := session.pools.set i (Pool.empty 0) }
  match action pool with
  | .ok value pool => (.ok value, { session with pools := session.pools.set i pool })
  | .error cause pool => (.error cause, { session with pools := session.pools.set i pool })

/-- Gives the outcome of an operation as an answer. -/
def conclude {α : Type} (answer : α → PoolAnswer) :
    Except Error α × PoolSession β → PoolAnswer × PoolSession β
  | (.ok value, session) => (answer value, session)
  | (.error cause, session) => (.failed cause, session)

/-- Runs an operation on a stream over an entity of a pool. -/
def onStream {α : Type} (entity : Entity)
    (action : EStateM Error (EntityReader (TrialDevice β)) α) :
    EStateM Error (Pool (TrialDevice β)) α
  | pool =>
    match action ⟨pool, entity⟩ with
    | .ok value reader => .ok value reader.pool
    | .error cause reader => .error cause reader.pool

variable [TrialBus β]

/-- The bus of a device in the pool is broken. -/
def isBroken (pool : Pool (TrialDevice β)) : Bool :=
  pool.slots.any fun slot =>
    match slot with
    | some ⟨_, .inr ⟨_, _, _, .inr driver⟩, _⟩ => TrialBus.isBroken driver.bus
    | _ => false

def streamStep (entity : Entity) (step : StreamStep) (pool : Pool (TrialDevice β)) :
    StreamAnswer × Pool (TrialDevice β) :=
  let action : EStateM Error (EntityReader (TrialDevice β)) StreamAnswer :=
    match step with
    | .read length => return .bytes (← EntityReader.read length)
    | .exact length => do
      match ← ByteSource.readExact length with
      | some bytes => return .exact bytes
      | none => return .ended
    | .seek target => return .position (← EntityReader.seek target)
    | .position => return .position (← EntityReader.position)
  match onStream entity action pool with
  | .ok answer pool => (answer, pool)
  | .error cause pool => (.failed cause, pool)

def streamSteps (entity : Entity) :
    List StreamStep → Pool (TrialDevice β) → List StreamAnswer × Pool (TrialDevice β)
  | [], pool => ([], pool)
  | step :: steps, pool =>
    match streamStep entity step pool with
    | (answer, pool) =>
      if isBroken pool then
        ([answer], pool)
      else
        match streamSteps entity steps pool with
        | (answers, pool) => (answer :: answers, pool)

def openDevice (i device : Nat) (discard : Bool) (session : PoolSession β) :
    PoolAnswer × PoolSession β :=
  match session.held.getD device none with
  | none => (.gone, session)
  | some held =>
    let session := { session with held := session.held.set device none }
    match session.onPool i (Pool.deviceOpen held) with
    | (.ok handle, session) =>
      (.bound session.handles.length handle.index,
        { session with handles := session.handles ++ [some handle] })
    | (.error rejected, session) =>
      if discard then
        (.discarded rejected.cause,
          { session with released := rejected.device :: session.released })
      else
        (.failed rejected.cause,
          { session with held := session.held.set device (some rejected.device) })

/-- A step about a handle that the session holds. -/
def handleStep (target : Target) (handle : Handle) (session : PoolSession β) :
    PoolStep → PoolAnswer × PoolSession β
  | .deviceClose =>
    let session := { session with handles := session.handles.set target.handle none }
    match session.onPool target.pool (Pool.deviceClose handle) with
    | (.ok device, session) => (.done, { session with released := device :: session.released })
    | (.error cause, session) => (.failed cause, session)
  | .openWindow region =>
    match session.onPool target.pool (Pool.openWindow handle region) with
    | (.ok entity, session) =>
      (.opened session.entities.length,
        { session with entities := session.entities ++ [some entity] })
    | (.error cause, session) => (.failed cause, session)
  | .check region =>
    conclude (fun _ => .done) (session.onPool target.pool (Pool.check handle region))
  | _ => (.gone, session)

/-- A step about an entity that the session holds. -/
def entityStep (target : Target) (entity : Entity) (session : PoolSession β) :
    PoolStep → PoolAnswer × PoolSession β
  | .seek mode offset =>
    conclude (fun _ => .done) (session.onPool target.pool (Pool.seek entity mode offset))
  | .read length =>
    conclude (.bytes length) (session.onPool target.pool (Pool.read entity length))
  | .write bytes => conclude .count (session.onPool target.pool (Pool.write entity bytes))
  | .window => conclude .window (session.onPool target.pool (Pool.window entity))
  | .close =>
    let session := { session with entities := session.entities.set target.entity none }
    conclude (fun _ => .done) (session.onPool target.pool (Pool.close entity))
  | .stream steps =>
    conclude .stream (session.onPool target.pool fun pool =>
      match streamSteps entity steps pool with
      | (answers, pool) => .ok answers pool)
  | .contents length =>
    match session.onPool target.pool (onStream entity (Package.readContents length)) with
    | (.ok entries, session) => (.contents entries, { session with contents := entries })
    | (.error cause, session) => (.failed cause, session)
  | .image index capacity =>
    match session.contents[index]? with
    | none => (.gone, session)
    | some entry =>
      conclude (.bytes capacity)
        (session.onPool target.pool (onStream entity (Package.readImage entry capacity)))
  | .imageAt offset size capacity =>
    let entry : Package.Entry := ⟨List.replicate 16 0, offset, size, 0⟩
    conclude (.bytes capacity)
      (session.onPool target.pool (onStream entity (Package.readImage entry capacity)))
  | _ => (.gone, session)

/-- A step on buses that are whole. -/
def attempt (target : Target) (request : PoolStep) (session : PoolSession β) :
    PoolAnswer × PoolSession β :=
  match request with
  | .register kind =>
    conclude (fun _ => .done) (session.onPool target.pool (Pool.register kind))
  | .isRegistered kind => (.truth ((session.pool target.pool).isRegistered kind), session)
  | .find device =>
    match session.keys[device]? with
    | none => (.gone, session)
    | some key => (.place ((session.pool target.pool).find? key), session)
  | .deviceOpen device discard => session.openDevice target.pool device discard
  | .findImage uuid => (.entry (Package.find? session.contents uuid), session)
  | .deviceClose | .openWindow _ | .check _ =>
    match session.handles.getD target.handle none with
    | none => (.gone, session)
    | some handle => session.handleStep target handle request
  | _ =>
    match session.entities.getD target.entity none with
    | none => (.gone, session)
    | some entity => session.entityStep target entity request

def step (target : Target) (request : PoolStep) (session : PoolSession β) :
    PoolAnswer × PoolSession β :=
  match session.attempt target request with
  | (answer, session) => (if session.pools.any isBroken then .broken else answer, session)

omit [TrialBus β] in
/-- The cursor of an entity of the session, if it is open in the pool. -/
def cursor? (target : Target) (session : PoolSession β) : Option Nat :=
  match session.entities.getD target.entity none with
  | none => none
  | some entity =>
    match Pool.window entity (session.pool target.pool) with
    | .ok window _ => some window.cursor
    | .error _ _ => none

omit [TrialBus β] in
/-- The raw accesses that a device has recorded, which it then forgets. -/
def takeLog : TrialDevice β → List RawAccess × TrialDevice β
  | .inr ⟨key, spec, scratch, .inl flash⟩ =>
    (flash.log.toList, .inr ⟨key, spec, scratch, .inl { flash with log := #[] }⟩)
  | device => ([], device)

omit [TrialBus β] in
def takeSlotLogs : List (Option (Slot (TrialDevice β))) →
    List RawAccess × List (Option (Slot (TrialDevice β)))
  | [] => ([], [])
  | none :: slots =>
    match takeSlotLogs slots with
    | (log, slots) => (log, none :: slots)
  | some ⟨key, device, window⟩ :: slots =>
    match takeLog device, takeSlotLogs slots with
    | (log, device), (rest, slots) => (log ++ rest, some ⟨key, device, window⟩ :: slots)

omit [TrialBus β] in
/-- The raw accesses that bound devices have recorded, which they then forget. -/
def takeLogs (session : PoolSession β) : List RawAccess × PoolSession β :=
  let taken := session.pools.map fun pool =>
    match takeSlotLogs pool.slots with
    | (log, slots) => (log, { pool with slots })
  (taken.flatMap (·.1), { session with pools := taken.map (·.2) })

/-- The driver among the devices of the session, on a bus that is whole. -/
def driver? (session : PoolSession β) : Option (Driver β) :=
  let bound := session.pools.flatMap fun pool =>
    pool.slots.filterMap fun slot => slot.map (·.device)
  (bound ++ session.held.filterMap id ++ session.released).findSome? fun
    | .inr ⟨_, _, _, .inr driver⟩ => some (driver.mapBus TrialBus.mend)
    | _ => none

end PoolSession

end NorFlash.Bench
