import NorFlash.Controller.Registers
import NorFlash.Text.Hex

/-!
Hardware for trying the engine out: plain words of memory, and a register file that answers sent
bytes from a script and records every access.
-/
namespace NorFlash.Bench

open NorFlash.Controller

/-- Words of memory, addressed by byte offset. -/
structure WordMemory where
  words : Array UInt32

namespace WordMemory

def zeroed (count : Nat) : WordMemory :=
  ⟨Array.replicate count 0⟩

instance : Hardware WordMemory where
  read register memory := (memory.words.getD (register / 4) 0, memory)
  write register value memory := ⟨memory.words.setIfInBounds (register / 4) value⟩
  delay _ memory := memory

end WordMemory

inductive Access where
  | read (register : Nat) (value : UInt32)
  | write (register : Nat) (value : UInt32)
  deriving DecidableEq, Repr, Inhabited

/-- The text of an access, with register and value in hexadecimal. -/
def Access.text : Access → String
  | read register value => "R" ++ Text.Hex.ofNat register ++ "=" ++ Text.Hex.ofNat value.toNat
  | write register value => "W" ++ Text.Hex.ofNat register ++ "=" ++ Text.Hex.ofNat value.toNat

structure ScriptedRegisters where
  /-- Words to be received, oldest first. -/
  queue : List UInt32 := []
  /-- Answers to the bytes sent; past its end the inverted byte is answered. -/
  script : List UInt32 := []
  control : UInt32 := 0
  /-- Bits that every status word has. -/
  statusBits : UInt32 := 0
  /-- The status always claims that something was received. -/
  stuck : Bool := false
  /-- Sent bytes get no answer. -/
  silent : Bool := false
  /-- Status reads for which an answer stays hidden. -/
  lag : Nat := 0
  /-- How many of them are left. -/
  hidden : Nat := 0
  log : Array Access := #[]
  /-- Microseconds of delay so far. -/
  delayed : Nat := 0
  delays : Nat := 0

namespace ScriptedRegisters

def readStatus (file : ScriptedRegisters) : UInt32 × ScriptedRegisters :=
  let empty := file.hidden ≠ 0 || file.queue.isEmpty
  let bit := if empty && !file.stuck then StatusBit.receiveEmpty else 0
  (file.statusBits ||| bit, { file with hidden := file.hidden - 1 })

def pop (file : ScriptedRegisters) : UInt32 × ScriptedRegisters :=
  match file.queue with
  | [] => (0, file)
  | word :: queue => (word, { file with queue })

/-- A byte was sent: its answer joins the queue, unless the file is silent. -/
def answer (value : UInt32) (file : ScriptedRegisters) : ScriptedRegisters :=
  let (word, script) := match file.script with
    | [] => (~~~value &&& 0xff, [])
    | word :: script => (word, script)
  if file.silent then
    { file with script }
  else
    { file with script, queue := file.queue ++ [word], hidden := file.lag }

instance : Hardware ScriptedRegisters where
  read register file :=
    let (value, file) :=
      if register = Register.status then file.readStatus
      else if register = Register.receive then file.pop
      else if register = Register.control then (file.control, file)
      else (0, file)
    (value, { file with log := file.log.push (.read register value) })
  write register value file :=
    let file := { file with log := file.log.push (.write register value) }
    if register = Register.transmit then file.answer value
    else if register = Register.control then { file with control := value }
    else file
  delay microseconds file :=
    { file with delayed := file.delayed + microseconds.toNat, delays := file.delays + 1 }

end ScriptedRegisters

end NorFlash.Bench
