import NorFlash.Proofs.BusTrace

/-!
What an operation does on its bus, as a script: commands, waits, releases and selections of a
die, carried out one after the other up to the first that fails. The scripts of the operations
of the driver depend on its state alone.
-/
namespace NorFlash

/-- The transfers of a command: its bytes, then its data if there are any. -/
def Command.transfers (command : ByteArray) (payload : Option ByteArray) (room : Option Nat)
    (length : Nat) : List Transfer :=
  { bits := command.size * 8, payload := some command, room := none,
    framing := ⟨true, length = 0⟩ } ::
    if length = 0 then []
    else [{ bits := length * 8, payload, room, framing := ⟨false, true⟩ }]

/-- Transfers made one after the other up to the first that fails. -/
inductive Sent : List Transfer → List BusCall → Option Error → Prop where
  | done : Sent [] [] none
  | answered {requests : List Transfer} {calls : List BusCall} {failure : Option Error}
    (request : Transfer) (bytes : ByteArray) (rest : Sent requests calls failure) :
    Sent (request :: requests) (.transfer request (.ok bytes) :: calls) failure
  | failed (request : Transfer) (requests : List Transfer) (cause : Error) :
    Sent (request :: requests) [.transfer request (.error cause)] (some cause)

namespace Sent

variable {requests requests' : List Transfer} {calls calls' : List BusCall}
  {failure : Option Error} {cause : Error}

theorem append (h : Sent requests calls none) (h' : Sent requests' calls' failure) :
    Sent (requests ++ requests') (calls ++ calls') failure := by
  generalize hnone : (none : Option Error) = first at h
  induction h with
  | done => exact h'
  | answered request bytes rest ih => exact .answered request bytes (ih hnone)
  | failed request requests cause => cases hnone

theorem append_failed (h : Sent requests calls (some cause)) (requests' : List Transfer) :
    Sent (requests ++ requests') calls (some cause) := by
  generalize hsome : some cause = first at h
  induction h with
  | done => cases hsome
  | answered request bytes rest ih => exact .answered request bytes (ih hsome)
  | failed request requests cause => exact .failed request (requests ++ requests') cause

theorem of_append (h : Sent (requests ++ requests') calls failure) :
    Sent requests calls failure ∨ ∃ first more, calls = first ++ more ∧
      Sent requests first none ∧ Sent requests' more failure := by
  induction requests generalizing calls with
  | nil => exact .inr ⟨[], calls, rfl, .done, h⟩
  | cons request requests ih =>
    cases h with
    | answered _ bytes rest =>
      rcases ih rest with hfirst | ⟨first, more, rfl, hfirst, hmore⟩
      · exact .inl (.answered request bytes hfirst)
      · exact .inr ⟨_, more, rfl, .answered request bytes hfirst, hmore⟩
    | failed _ _ cause => exact .inl (.failed request requests cause)

end Sent

/-- The transfers that read a register of one byte. -/
def Opcode.registerRead (op : Opcode) : List Transfer :=
  Command.transfers (Bytes.ofList [op.byte]) none (some 1) 1

namespace Check

/-- The registers that a check for readiness reads. -/
def registers (flagged : Bool) : List Opcode :=
  if flagged then [.readStatus, .readFlagStatus] else [.readStatus]

def requests (flagged : Bool) : List Transfer :=
  ((registers flagged).map Opcode.registerRead).flatten

/-- Whether the part is ready by what the transfers of a check have received. -/
def passes (calls : List BusCall) : Bool :=
  match BusCall.received calls with
  | [_, status] => Bytes.byteAt status 0 &&& StatusBit.writeInProgress == 0
  | [_, status, _, flags] =>
    Bytes.byteAt status 0 &&& StatusBit.writeInProgress == 0 &&
      Bytes.byteAt flags 0 &&& FlagStatusBit.controllerIdle != 0
  | _ => false

end Check

/-- This many checks in a row, none of which passes and each with its delay. -/
inductive Idle (flagged : Bool) : Nat → List BusCall → Prop where
  | nil : Idle flagged 0 []
  | again {check calls : List BusCall} {checks : Nat}
    (sent : Sent (Check.requests flagged) check none) (busy : Check.passes check = false)
    (rest : Idle flagged checks calls) :
    Idle flagged (checks + 1) (check ++ .delay 100 :: calls)

/-- A wait with this many checks: it ends with the first check that passes or fails. -/
inductive Waits (flagged : Bool) (attempts : Nat) : List BusCall → Option Error → Prop where
  | settled {checks : Nat} {polls check : List BusCall} (idle : Idle flagged checks polls)
    (left : checks < attempts) (sent : Sent (Check.requests flagged) check none)
    (ready : Check.passes check = true) : Waits flagged attempts (polls ++ check) none
  | broken {checks : Nat} {polls check : List BusCall} {cause : Error}
    (idle : Idle flagged checks polls) (left : checks < attempts)
    (sent : Sent (Check.requests flagged) check (some cause)) :
    Waits flagged attempts (polls ++ check) (some cause)
  | spent {polls : List BusCall} (idle : Idle flagged attempts polls) :
    Waits flagged attempts polls (some .busyTimeout)

/-- A check that does not pass and the wait that goes on after it. -/
theorem Waits.again {flagged : Bool} {attempts : Nat} {check calls : List BusCall}
    {failure : Option Error} (sent : Sent (Check.requests flagged) check none)
    (busy : Check.passes check = false) (rest : Waits flagged attempts calls failure) :
    Waits flagged (attempts + 1) (check ++ .delay 100 :: calls) failure := by
  cases rest with
  | settled idle left sent' ready =>
    rw [← List.cons_append, ← List.append_assoc]
    exact .settled (idle.again sent busy) (Nat.succ_lt_succ left) sent' ready
  | broken idle left sent' =>
    rw [← List.cons_append, ← List.append_assoc]
    exact .broken (idle.again sent busy) (Nat.succ_lt_succ left) sent'
  | spent idle => exact .spent (idle.again sent busy)

/-- One thing that an operation does on its bus. -/
inductive Phase where
  | command (requests : List Transfer)
  | wait (timeout : UInt32)
  | release
  | selectUpper (upper : Bool)

/-- The calls that a phase makes, and why it fails if it does. -/
inductive Phase.Run (flagged : Bool) : Phase → List BusCall → Option Error → Prop where
  | command {requests : List Transfer} {calls : List BusCall} {failure : Option Error}
    (sent : Sent requests calls failure) : Run flagged (.command requests) calls failure
  | wait {timeout : UInt32} {calls : List BusCall} {failure : Option Error}
    (waits : Waits flagged (Poll.attempts timeout) calls failure) :
    Run flagged (.wait timeout) calls failure
  | release : Run flagged .release [.release] none
  | selectUpper (upper : Bool) :
    Run flagged (.selectUpper upper) [.selectUpper upper] none

/-- Phases carried out one after the other up to the first that fails. -/
inductive Performed (flagged : Bool) : List Phase → List BusCall → Option Error → Prop where
  | done : Performed flagged [] [] none
  | carried {phase : Phase} {phases : List Phase} {calls more : List BusCall}
    {failure : Option Error} (run : phase.Run flagged calls none)
    (rest : Performed flagged phases more failure) :
    Performed flagged (phase :: phases) (calls ++ more) failure
  | stopped {phase : Phase} {calls : List BusCall} {cause : Error}
    (run : phase.Run flagged calls (some cause)) (phases : List Phase) :
    Performed flagged (phase :: phases) calls (some cause)

namespace Performed

variable {flagged : Bool} {phase : Phase} {phases phases' : List Phase}
  {calls calls' : List BusCall} {failure : Option Error} {cause : Error}

theorem single (run : phase.Run flagged calls failure) :
    Performed flagged [phase] calls failure := by
  cases failure with
  | none =>
    rw [← List.append_nil calls]
    exact .carried run .done
  | some cause => exact .stopped run []

theorem append (h : Performed flagged phases calls none)
    (h' : Performed flagged phases' calls' failure) :
    Performed flagged (phases ++ phases') (calls ++ calls') failure := by
  generalize hnone : (none : Option Error) = first at h
  induction h with
  | done => exact h'
  | carried run rest ih =>
    rw [List.append_assoc]
    exact .carried run (ih hnone)
  | stopped run phases => cases hnone

theorem append_stopped (h : Performed flagged phases calls (some cause))
    (phases' : List Phase) : Performed flagged (phases ++ phases') calls (some cause) := by
  generalize hsome : some cause = first at h
  induction h with
  | done => cases hsome
  | carried run rest ih => exact .carried run (ih hsome)
  | stopped run phases =>
    cases hsome
    exact .stopped run (phases ++ phases')

/-- Phases that are all carried out are carried out in both halves. -/
theorem of_append (h : Performed flagged (phases ++ phases') calls none) :
    ∃ first more, calls = first ++ more ∧ Performed flagged phases first none ∧
      Performed flagged phases' more none := by
  induction phases generalizing calls with
  | nil => exact ⟨[], calls, rfl, .done, h⟩
  | cons phase phases ih =>
    cases h with
    | carried run rest =>
      obtain ⟨first, more, rfl, hfirst, hmore⟩ := ih rest
      exact ⟨_, more, (List.append_assoc ..).symm, .carried run hfirst, hmore⟩

/-- Commands in a row are one sequence of transfers. -/
theorem sent {commands : List (List Transfer)}
    (h : Performed flagged (commands.map .command) calls failure) :
    Sent commands.flatten calls failure := by
  induction commands generalizing calls with
  | nil =>
    cases h
    exact .done
  | cons requests commands ih =>
    rw [List.flatten_cons]
    cases h with
    | carried run rest =>
      cases run with
      | command sent => exact sent.append (ih rest)
    | stopped run phases =>
      cases run with
      | command sent => exact sent.append_failed commands.flatten

theorem of_command {requests : List Transfer}
    (h : Performed flagged [.command requests] calls failure) : Sent requests calls failure := by
  have hsent : Sent [requests].flatten calls failure := Performed.sent h
  rwa [List.flatten_singleton] at hsent

end Performed

section Every

variable {p : BusCall → Prop} {flagged : Bool} {calls : List BusCall} {failure : Option Error}

/-- What holds of the transfers, however they are answered, holds of the calls. -/
theorem Sent.forall_calls {requests : List Transfer} (h : Sent requests calls failure)
    (hp : ∀ request ∈ requests, ∀ answer, p (.transfer request answer)) :
    ∀ call ∈ calls, p call := by
  induction h with
  | done => exact fun call hcall => by cases hcall
  | answered request bytes rest ih =>
    exact List.forall_mem_cons.mpr ⟨hp request List.mem_cons_self _,
      ih fun request h => hp request (List.mem_cons_of_mem _ h)⟩
  | failed request requests cause =>
    exact List.forall_mem_singleton.mpr (hp request List.mem_cons_self _)

variable (hcheck : ∀ request ∈ Check.requests flagged, ∀ answer, p (.transfer request answer))
  (hdelay : ∀ microseconds, p (.delay microseconds))
include hcheck hdelay

theorem Idle.forall_calls {checks : Nat} (h : Idle flagged checks calls) :
    ∀ call ∈ calls, p call := by
  induction h with
  | nil => exact fun call hcall => by cases hcall
  | again sent busy rest ih =>
    exact List.forall_mem_append.mpr
      ⟨sent.forall_calls hcheck, List.forall_mem_cons.mpr ⟨hdelay 100, ih⟩⟩

theorem Waits.forall_calls {attempts : Nat} (h : Waits flagged attempts calls failure) :
    ∀ call ∈ calls, p call := by
  cases h with
  | settled idle left sent ready =>
    exact List.forall_mem_append.mpr ⟨idle.forall_calls hcheck hdelay, sent.forall_calls hcheck⟩
  | broken idle left sent =>
    exact List.forall_mem_append.mpr ⟨idle.forall_calls hcheck hdelay, sent.forall_calls hcheck⟩
  | spent idle => exact idle.forall_calls hcheck hdelay

theorem Performed.forall_calls {phases : List Phase} (h : Performed flagged phases calls failure)
    (hrelease : p .release)
    (hcommand : ∀ requests, .command requests ∈ phases → ∀ request ∈ requests, ∀ answer,
      p (.transfer request answer))
    (hselect : ∀ upper, .selectUpper upper ∈ phases → p (.selectUpper upper)) :
    ∀ call ∈ calls, p call := by
  have hrun {phase : Phase} {calls : List BusCall} {failure : Option Error}
      (run : phase.Run flagged calls failure)
      (hcommand : ∀ requests, phase = .command requests → ∀ request ∈ requests, ∀ answer,
        p (.transfer request answer))
      (hselect : ∀ upper, phase = .selectUpper upper → p (.selectUpper upper)) :
      ∀ call ∈ calls, p call := by
    cases run with
    | command sent => exact sent.forall_calls (hcommand _ rfl)
    | wait waits => exact waits.forall_calls hcheck hdelay
    | release => exact List.forall_mem_singleton.mpr hrelease
    | selectUpper upper => exact List.forall_mem_singleton.mpr (hselect upper rfl)
  induction h with
  | done => exact fun call hcall => by cases hcall
  | carried run rest ih =>
    refine List.forall_mem_append.mpr ⟨hrun run (fun requests h => hcommand requests (by simp [h]))
      fun upper h => hselect upper (by simp [h]), ?_⟩
    exact ih (fun requests h => hcommand requests (List.mem_cons_of_mem _ h))
      fun upper h => hselect upper (List.mem_cons_of_mem _ h)
  | stopped run phases =>
    exact hrun run (fun requests h => hcommand requests (by simp [h]))
      fun upper h => hselect upper (by simp [h])

end Every

namespace Phase

/-- Write enable, a frame with its payload, the wait for completion and the release. -/
def write (settings : FlashSettings) (frame : Frame) (payload : Option ByteArray) : List Phase :=
  let data := payload.getD .empty
  [.command (Command.transfers (Bytes.ofList [Opcode.writeEnable.byte]) none (some 0) 0),
    .command (Command.transfers frame.bytes (some data) none data.size),
    .wait (if payload.isSome then settings.programTimeout else settings.eraseTimeout),
    .release]

def receive (frame : Frame) (length : Nat) : List Phase :=
  [.command (Command.transfers frame.bytes none (some length) length), .release]

/-- The write of the bank register, unless the bank of the address is the current one. -/
def selectBank (g : Geometry) (state : DriverState) (address : Nat) : List Phase :=
  match state.bank with
  | none => []
  | some bank =>
    if g.bankOf address = bank.current.toNat then []
    else write state.settings (.ofOpcode bank.writeCommand.byte)
      (some (Bytes.ofList [.ofNat (g.bankOf address)]))

def visit (g : Geometry) (state : DriverState) (position : Nat) : List Phase :=
  let place := g.locate position
  (if g.wiring = .stacked then [.selectUpper place.upper] else []) ++
    selectBank g state place.address

end Phase

/-- Phases that leave the selection of the die alone. -/
def Unrouted (phases : List Phase) : Prop :=
  ∀ upper, .selectUpper upper ∉ phases

theorem Phase.unrouted_write (settings : FlashSettings) (frame : Frame)
    (payload : Option ByteArray) : Unrouted (write settings frame payload) := by
  simp [Unrouted, write]

namespace DriverState

/-- The state of a driver that has made the bank of an address the current one. -/
def banked (g : Geometry) (state : DriverState) (address : Nat) : DriverState :=
  { state with
    bank := state.bank.map fun bank => { bank with current := .ofNat (g.bankOf address) } }

theorem banked_of_current {g : Geometry} {state : DriverState} {address : Nat}
    (h : ∀ bank, state.bank = some bank → g.bankOf address = bank.current.toNat) :
    banked g state address = state := by
  obtain ⟨settings, lifecycle, geometry, bank, upper, lockCheck⟩ := state
  cases bank with
  | none => rfl
  | some bank => simp [banked, h bank rfl]

/-- The state of a driver that has visited a position. -/
def visited (g : Geometry) (state : DriverState) (position : Nat) : DriverState :=
  let place := g.locate position
  banked g { state with upper := if g.wiring = .stacked then place.upper else state.upper }
    place.address

end DriverState

end NorFlash
