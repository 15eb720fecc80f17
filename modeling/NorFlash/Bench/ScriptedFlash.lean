import NorFlash.Bench.RecordingBus
import NorFlash.Block.Flash

/-!
Raw flash for trying flash devices out: it serves a pattern, claims counts from a script,
and records every access. Beside it a readiness check that follows a script.
-/
namespace NorFlash.Bench

open NorFlash.Block

/-- An access to raw flash by its offset and length. -/
structure RawAccess where
  offset : Nat
  length : Nat
  isWrite : Bool
  deriving DecidableEq, Repr, Inhabited

structure ScriptedFlash where
  /-- Results of the next reads: failures and claimed counts. -/
  script : List (Except Error Nat) := []
  /-- The most that a read past the end of the script claims. -/
  short : Option Nat := none
  log : Array RawAccess := #[]

namespace ScriptedFlash

def read (offset : Nat) : EStateM Error (ByteArray × ScriptedFlash) Nat
  | (buffer, ⟨script, short, log⟩) =>
    let length := buffer.size
    let log := log.push ⟨offset, length, false⟩
    let filled (count : Nat) := Bytes.overlay buffer 0 (pattern offset (min count length))
    match script with
    | .error cause :: script => .error cause (buffer, ⟨script, short, log⟩)
    | .ok count :: script => .ok count (filled count, ⟨script, short, log⟩)
    | [] =>
      let count := min length (short.getD length)
      .ok count (filled count, ⟨[], short, log⟩)

def write (offset : Nat) (bytes : ByteArray) : EStateM Error ScriptedFlash Nat
  | ⟨script, short, log⟩ => .ok bytes.size ⟨script, short, log.push ⟨offset, bytes.size, true⟩⟩

instance : RawFlash ScriptedFlash where
  read := read
  write := write

end ScriptedFlash

/-- A readiness check that takes its answers from a script and then stays false, with the number
of checks and waits made. -/
structure ScriptedCheck where
  script : List (Except Error Bool)
  checks : Nat := 0
  waits : Nat := 0
  waited : Nat := 0

namespace ScriptedCheck

def check : EStateM Error ScriptedCheck Bool
  | ⟨script, checks, waits, waited⟩ =>
    match script with
    | [] => .ok false ⟨[], checks + 1, waits, waited⟩
    | .ok ready :: script => .ok ready ⟨script, checks + 1, waits, waited⟩
    | .error cause :: script => .error cause ⟨script, checks + 1, waits, waited⟩

def wait (microseconds : UInt32) : ScriptedCheck → ScriptedCheck
  | ⟨script, checks, waits, waited⟩ => ⟨script, checks, waits + 1, waited + microseconds.toNat⟩

end ScriptedCheck

end NorFlash.Bench
