import NorFlash.Proofs.Fulfilment
import NorFlash.Proofs.StateRules

/-!
The command protocol of a serial NOR part, on any bus and over any run of the driver. A command
that was broken off is never resumed, every command that changes the part stands behind its own
write enable, and an operation that succeeds has seen the part become ready after its last change.
-/
namespace NorFlash

/-- The commands that change the part. -/
def Opcode.changing : List Opcode :=
  [writeStatus, writeBank, writeExtendedAddress, pageProgram, quadPageProgram, eraseSmallSector,
    eraseSector]

theorem Opcode.byte_ne_changing {op : Opcode} (h : op ∉ changing) :
    ∀ other ∈ changing, op.byte ≠ other.byte :=
  fun _ hother heq => h (byte_injective heq ▸ hother)

namespace BusCall

/-- A write enable command that has succeeded. -/
def EnablesWrites : BusCall → Prop
  | transfer request (.ok _) =>
    request.framing = .once ∧ request.payload.map Bytes.toList = some [Opcode.writeEnable.byte]
  | _ => False

/-- The command phase of a command with data, when it has succeeded. -/
def Opens : BusCall → Prop
  | transfer request (.ok _) => request.framing = ⟨true, false⟩
  | _ => False

/-- What may be called directly after the `last` call. -/
inductive Follows (last : Option BusCall) : BusCall → Prop where
  | command {request : Transfer} (answer : Except Error ByteArray) (command : ByteArray)
    (first : request.framing.first = true) (sends : request.payload = some command)
    (bits : request.bits = command.size * 8) (size_le : command.size ≤ Frame.capacity)
    (enabled : ∀ op ∈ Opcode.changing, (Bytes.toList command).head? = some op.byte →
      ∃ before, last = some before ∧ before.EnablesWrites) :
    Follows last (.transfer request answer)
  | data {request : Transfer} (answer : Except Error ByteArray) {before : BusCall}
    (first : request.framing.first = false) (ends : request.framing.last = true)
    (directly : last = some before) (opened : before.Opens) :
    Follows last (.transfer request answer)
  | release : Follows last .release
  | selectUpper (upper : Bool) : Follows last (.selectUpper upper)
  | delay (microseconds : UInt32) : Follows last (.delay microseconds)

end BusCall

/-- Calls that keep to the command protocol, behind the `last` one. -/
def Orderly : (last : Option BusCall) → List BusCall → Prop
  | _, [] => True
  | last, call :: calls => call.Follows last ∧ Orderly (some call) calls

section Orderly

variable {calls more : List BusCall} {failure : Option Error} {last : Option BusCall}

theorem Orderly.append (h : Orderly last calls) (hmore : ∀ last, Orderly last more) :
    Orderly last (calls ++ more) := by
  induction calls generalizing last with
  | nil => exact hmore last
  | cons call calls ih => exact ⟨h.1, ih h.2⟩

/-- A command goes on with its data only when its first transfer has succeeded. -/
theorem Sent.orderly {frame : Frame} {payload : Option ByteArray} {room : Option Nat} {length : Nat}
    (h : Sent (Command.transfers frame.bytes payload room length) calls failure)
    (henabled : ∀ op ∈ Opcode.changing, frame.opcode = op.byte →
      ∃ before, last = some before ∧ before.EnablesWrites) : Orderly last calls := by
  let opening : Transfer :=
    { bits := frame.bytes.size * 8, payload := some frame.bytes, room := none,
      framing := ⟨true, length = 0⟩ }
  have hopening (answer : Except Error ByteArray) :
      BusCall.Follows last (.transfer opening answer) :=
    .command answer frame.bytes rfl rfl rfl frame.size_le_capacity fun op hop hhead =>
      henabled op hop (Option.some.inj hhead)
  cases h with
  | failed _ _ cause => exact ⟨hopening (.error cause), trivial⟩
  | answered _ bytes rest =>
    refine ⟨hopening (.ok bytes), ?_⟩
    by_cases hnothing : length = 0
    · rw [if_pos hnothing] at rest
      cases rest
      trivial
    · rw [if_neg hnothing] at rest
      have hopened : BusCall.Opens (.transfer opening (.ok bytes)) := by
        change opening.framing = _
        simp [opening, hnothing]
      cases rest with
      | failed _ _ cause => exact ⟨.data _ rfl rfl rfl hopened, trivial⟩
      | answered _ data rest =>
        cases rest
        exact ⟨.data _ rfl rfl rfl hopened, trivial⟩

/-- A command that changes nothing needs no write enable. -/
theorem Sent.orderly_plain (frame : Frame) {payload : Option ByteArray} {room : Option Nat}
    {length : Nat} (h : Sent (Command.transfers frame.bytes payload room length) calls failure)
    (hplain : ∀ op ∈ Opcode.changing, frame.opcode ≠ op.byte) (last : Option BusCall) :
    Orderly last calls :=
  h.orderly fun op hop heq => absurd heq (hplain op hop)

theorem Sent.orderly_registerRead {op : Opcode} (h : Sent op.registerRead calls failure)
    (hop : op ∉ Opcode.changing) (last : Option BusCall) : Orderly last calls :=
  Sent.orderly_plain (.ofOpcode op.byte) h (Opcode.byte_ne_changing hop) last

variable {flagged : Bool}

theorem Sent.orderly_check (h : Sent (Check.requests flagged) calls failure)
    (last : Option BusCall) : Orderly last calls := by
  have hstatus {calls : List BusCall} {failure : Option Error}
      (h : Sent Opcode.readStatus.registerRead calls failure) : Orderly last calls :=
    h.orderly_registerRead (by decide) last
  cases flagged with
  | false => exact hstatus h
  | true =>
    have hboth : Sent (Opcode.readStatus.registerRead ++ Opcode.readFlagStatus.registerRead) calls
      failure := h
    rcases hboth.of_append with hfirst | ⟨first, more, rfl, hfirst, hmore⟩
    · exact hstatus hfirst
    · exact (hstatus hfirst).append (hmore.orderly_registerRead (by decide))

theorem Idle.orderly {checks : Nat} (h : Idle flagged checks calls) (last : Option BusCall) :
    Orderly last calls := by
  induction h generalizing last with
  | nil => trivial
  | again sent busy rest ih =>
    exact (sent.orderly_check last).append fun last => ⟨.delay 100, ih _⟩

theorem Waits.orderly {attempts : Nat} (h : Waits flagged attempts calls failure)
    (last : Option BusCall) : Orderly last calls := by
  cases h with
  | settled idle left sent ready => exact (idle.orderly last).append sent.orderly_check
  | broken idle left sent => exact (idle.orderly last).append sent.orderly_check
  | spent idle => exact idle.orderly last

theorem Sent.enablesWrites
    (h : Sent (Command.transfers (Bytes.ofList [Opcode.writeEnable.byte]) none (some 0) 0) calls
      none) : ∃ call, calls = [call] ∧ call.EnablesWrites := by
  cases h with
  | answered request bytes rest =>
    cases rest
    exact ⟨_, rfl, rfl, rfl⟩

theorem Performed.orderly_wait {timeout : UInt32}
    (h : Performed flagged [.wait timeout, .release] calls failure) (last : Option BusCall) :
    Orderly last calls := by
  cases h with
  | stopped run phases =>
    cases run with
    | wait waits => exact waits.orderly last
  | carried run rest =>
    cases run with
    | wait waits =>
      refine (waits.orderly last).append fun last => ?_
      cases rest with
      | stopped run phases => cases run
      | carried run rest =>
        cases run
        cases rest
        exact ⟨.release, trivial⟩

/-- A write command, whatever its frame, is sent directly behind a write enable. -/
theorem Performed.orderly_write {settings : FlashSettings} {frame : Frame}
    {payload : Option ByteArray}
    (h : Performed flagged (Phase.write settings frame payload) calls failure)
    (last : Option BusCall) : Orderly last calls := by
  have hplain : ∀ op ∈ Opcode.changing, Opcode.writeEnable.byte ≠ op.byte :=
    Opcode.byte_ne_changing (by decide)
  cases h with
  | stopped run phases =>
    cases run with
    | command sent =>
      exact Sent.orderly_plain (.ofOpcode Opcode.writeEnable.byte) sent hplain last
  | carried run rest =>
    cases run with
    | command sent =>
      have hfirst := Sent.orderly_plain (.ofOpcode Opcode.writeEnable.byte) sent hplain last
      obtain ⟨call, rfl, henables⟩ := sent.enablesWrites
      refine ⟨hfirst.1, ?_⟩
      cases rest with
      | stopped run phases =>
        cases run with
        | command sent => exact sent.orderly fun _ _ _ => ⟨call, rfl, henables⟩
      | carried run rest =>
        cases run with
        | command sent =>
          exact (sent.orderly fun _ _ _ => ⟨call, rfl, henables⟩).append rest.orderly_wait

end Orderly

/-- Calls that keep to the protocol whatever they follow. -/
def orderlyConduct : Conduct where
  allows calls := ∀ last, Orderly last calls
  plain frame := ∀ op ∈ Opcode.changing, frame.opcode ≠ op.byte
  enabled _ := True
  nil _ := trivial
  append h hmore last := (h last).append hmore
  command {frame _ _ _ _ _} hplain sent last := sent.orderly_plain frame hplain last
  write _ performed last := performed.orderly_write last
  release _ := ⟨.release, trivial⟩
  selectUpper upper _ := ⟨.selectUpper upper, trivial⟩

theorem orderlyConduct_plain (op : Opcode) (h : op ∉ Opcode.changing) :
    orderlyConduct.plain (.ofOpcode op.byte) :=
  Opcode.byte_ne_changing h

theorem orderlyConduct_prepares : orderlyConduct.Prepares := by
  have hnone : ∀ op ∈ Conduct.preparing, op ∉ Opcode.changing := by decide
  exact Conduct.prepares_of_plain (fun op hop => orderlyConduct_plain op (hnone op hop)) trivial

/-- The operations of a driver that access the part as a whole: the scan, the requests and the
writes of the registers. -/
inductive Routine where
  | scan
  | call (call : Call)
  | writeStatus (status : UInt8)
  | writeConfig (config : UInt8)

namespace Routine

def perform {β : Type} [SpiBus β] : Routine → Driver.Action β Unit
  | scan => do
    let _ ← Driver.scan
  | call request => request.perform
  | writeStatus status => Driver.writeStatus status
  | writeConfig config => Driver.writeConfig config

/-- Carries out routines one after the other, whether or not they succeed. -/
def run {β : Type} [SpiBus β] : List Routine → Driver.Action β Unit
  | [] => pure ()
  | routine :: routines => do
    let _ ← Driver.attempt routine.perform
    run routines

/-- The routines that write to the part when there is anything to write. -/
def writes : Routine → Bool
  | scan | call (.read _ _) => false
  | _ => true

def isEmpty : Routine → Bool
  | call request => request.length = 0
  | _ => false

variable {β : Type} [SpiBus β]

/-- A run comes to its end, and keeps what its routines keep. -/
theorem keeps_run {I : Driver β → Prop}
    (h : ∀ routine : Routine, Driver.Keeps I (routine.perform : Driver.Action β Unit))
    (routines : List Routine) {d : Driver β} (hd : I d) :
    ∃ d', run routines d = .ok () d' ∧ I d' := by
  induction routines generalizing d with
  | nil => exact ⟨d, rfl, hd⟩
  | cons routine routines ih =>
    obtain ⟨outcome, d₁, hattempt, hd₁⟩ := (h routine).attempt_ok hd
    obtain ⟨d', hrun, hd'⟩ := ih hd₁
    exact ⟨d', (bind_of_ok hattempt _).trans hrun, hd'⟩

theorem orderly_perform {before : List BusCall} (routine : Routine) :
    Driver.Keeps (orderlyConduct.Since before)
      (routine.perform : Driver.Action (Traced β) Unit) := by
  cases routine with
  | scan =>
    exact (Conduct.keeps_scan orderlyConduct_prepares
      (orderlyConduct_plain .readId (by decide))).bind fun _ => .pure _
  | call request =>
    refine Conduct.keeps_call (fun _ => trivial) (fun mode width address => ?_) request
    have hmode : mode.opcode ∉ Opcode.changing := by cases mode <;> decide
    exact Opcode.byte_ne_changing hmode
  | writeStatus status => exact Conduct.keeps_write orderlyConduct_prepares.writeStatus _
  | writeConfig config => exact Conduct.keeps_writeConfig orderlyConduct_prepares config

end Routine

/-- Calls that end with a command that changes the part, carried out with its data, and with the
checks that wait for it, the last of which has shown the part to be ready. -/
inductive Settled (flagged : Bool) : List BusCall → Prop where
  | of (before : List BusCall) {command polls check : List BusCall} {frame : Frame}
    {payload : ByteArray} {checks : Nat}
    (changing : ∃ op ∈ Opcode.changing, frame.opcode = op.byte)
    (sent : Sent (Command.transfers frame.bytes (some payload) none payload.size) command none)
    (idle : Idle flagged checks polls) (last : Sent (Check.requests flagged) check none)
    (ready : Check.passes check = true) :
    Settled flagged (before ++ (command ++ (polls ++ (check ++ [.release]))))

section Settled

variable {flagged : Bool} {calls : List BusCall}

theorem Settled.after (h : Settled flagged calls) (before : List BusCall) :
    Settled flagged (before ++ calls) := by
  cases h with
  | of earlier changing sent idle last ready =>
    rw [← List.append_assoc]
    exact .of (before ++ earlier) changing sent idle last ready

theorem Performed.settled {settings : FlashSettings} {frame : Frame} {payload : Option ByteArray}
    (h : Performed flagged (Phase.write settings frame payload) calls none)
    (hframe : ∃ op ∈ Opcode.changing, frame.opcode = op.byte) : Settled flagged calls := by
  cases h with
  | @carried _ _ enable _ _ run rest =>
    cases rest with
    | carried run rest =>
      cases run with
      | command sent =>
        cases rest with
        | carried run rest =>
          cases run with
          | wait waits =>
            cases waits with
            | settled idle left last ready =>
              cases rest with
              | carried run rest =>
                cases run
                cases rest
                rw [List.append_assoc]
                exact .of enable hframe sent idle last ready

/-- A write command that changes the part. -/
def Changes (phases : List Phase) : Prop :=
  ∃ settings frame payload, phases = Phase.write settings frame payload ∧
    ∃ op ∈ Opcode.changing, frame.opcode = op.byte

theorem Visits.settled {g : Geometry} {state final : DriverState} {pieces : List Piece}
    (h : Visits flagged g (fun _ => Changes) state pieces calls final) :
    if pieces = [] then calls = [] else Settled flagged calls := by
  induction h with
  | nil state => rfl
  | @cons state final piece pieces phases calls more fits performed rest ih =>
    rw [if_neg (List.cons_ne_nil piece pieces)]
    by_cases hlast : pieces = []
    · rw [if_pos hlast] at ih
      obtain ⟨settings, frame, payload, rfl, hframe⟩ := fits
      obtain ⟨before, commands, rfl, -, hcommands⟩ := performed.of_append
      rw [ih, List.append_nil]
      exact (hcommands.settled hframe).after before
    · rw [if_neg hlast] at ih
      exact ih.after calls

variable {β : Type} [SpiBus β] {d d' : Driver β}

theorem Call.changes_commands {call : Call} (hwrites : (Routine.call call).writes = true)
    {g : Geometry} (herases : g.eraseCommand = .eraseSmallSector ∨ g.eraseCommand = .eraseSector)
    (settings : FlashSettings) (piece : Piece) : Changes (call.commands g settings piece) := by
  cases call with
  | read offset length => cases hwrites
  | program offset data =>
    refine ⟨settings, _, _, rfl, g.programMode.opcode, ?_, rfl⟩
    cases g.programMode <;> decide
  | erase offset length =>
    refine ⟨settings, _, _, rfl, g.eraseCommand, ?_, rfl⟩
    rcases herases with hop | hop <;> rw [hop] <;> decide

/-- An erase or a program that succeeds. -/
theorem Call.Succeeds.settled {call : Call} (h : call.Succeeds d d')
    (hwrites : (Routine.call call).writes = true) {g : Geometry}
    (hlayout : d.state.layout? = some g)
    (herases : g.eraseCommand = .eraseSmallSector ∨ g.eraseCommand = .eraseSector) :
    if call.length = 0 then call.callsOn d = [] else Settled g.useFlagStatus (call.callsOn d) := by
  obtain ⟨g', hlayout', -, hvisits⟩ := h.visits
  obtain rfl : g = g' := Option.some.inj (hlayout.symm.trans hlayout')
  have hchanges : Visits g.useFlagStatus g (fun _ => Changes) d.state
      (call.pieces g (SpiBus.maxWrite d.bus)) (call.callsOn d) d'.state := by
    refine hvisits.imp fun piece _ phases hphases => ?_
    rw [hphases]
    exact Call.changes_commands hwrites herases _ piece
  have hsettled := hchanges.settled
  have hpieces : call.pieces g (SpiBus.maxWrite d.bus) = [] ↔ call.length = 0 := by
    obtain ⟨limit, htile⟩ := call.pieces_eq_tile g (SpiBus.maxWrite d.bus)
    rw [htile]
    constructor
    · intro hnone
      refine Decidable.byContradiction fun hlength => ?_
      rw [Piece.tile_of_ne_zero _ _ hlength] at hnone
      cases hnone
    · intro hlength
      rw [hlength, Piece.tile_zero]
  simpa only [hpieces] using hsettled

/-- A write of the status register that succeeds, alone or behind another operation. -/
theorem settled_of_write {frame : Frame} {payload : Option ByteArray}
    (hframe : ∃ op ∈ Opcode.changing, frame.opcode = op.byte) {bus : β} {before : List BusCall}
    {state : DriverState} {d' : Driver (Traced β)}
    (h : Driver.write frame payload (⟨⟨bus, before⟩, state⟩ : Driver (Traced β)) = .ok () d') :
    Settled (state.geometry.any (·.useFlagStatus)) d'.bus.calls := by
  obtain ⟨bus', calls, rfl, performed, -⟩ := (Driver.carries_write rfl frame payload).of_ok h
  exact (performed.settled hframe).after before

theorem writeStatus_settled {status : UInt8} (h : Driver.writeStatus status d = .ok () d') :
    Settled (d.state.geometry.any (·.useFlagStatus))
      (Driver.callsOf (Driver.writeStatus status) d) := by
  have hwrite := Driver.traced_of_ok
    (Driver.simulates_write (Traced.busSimulation_forgets d.bus) _ _) h
  have hsettled := settled_of_write ⟨.writeStatus, by decide, rfl⟩ hwrite
  exact hsettled

theorem writeConfig_settled {config : UInt8} (h : Driver.writeConfig config d = .ok () d') :
    Settled (d.state.geometry.any (·.useFlagStatus))
      (Driver.callsOf (Driver.writeConfig config) d) := by
  obtain ⟨status, d₁, hread, hwrite⟩ := ok_of_bind (Driver.traced_of_ok
    (Driver.simulates_writeConfig (Traced.busSimulation_forgets d.bus) config) h)
  obtain ⟨bus, calls, rfl, -⟩ := (Driver.carries_readRegister false d.state .readStatus).of_ok hread
  have hsettled := settled_of_write ⟨.writeStatus, by decide, rfl⟩ hwrite
  exact hsettled

end Settled

/-- A layout, if there is one, is that of a part under some settings. -/
def Laid (state : DriverState) : Prop :=
  ∀ g, state.geometry = some g → ∃ part settings, g = .derive part settings

theorem laid_steadfast : Driver.Steadfast Laid where
  routed _ h := h
  banked _ _ h := h

namespace Routine

variable {β : Type} [SpiBus β]

theorem laid_perform (routine : Routine) :
    Driver.Keeps (Driver.Retains Laid) (routine.perform : Driver.Action β Unit) := by
  cases routine with
  | scan =>
    refine (Driver.retains_scan (fun state lifecycle _ g hg => ?_) (fun _ h => h)
      (fun part state _ g hg => ?_) fun _ _ h => h).bind fun _ => .pure _
    · cases hg
    · exact ⟨part, state.settings, (Option.some.inj hg).symm⟩
  | call request => exact Driver.retains_call laid_steadfast request
  | writeStatus status => exact Driver.retains_of_knows fun _ => Driver.knows_write _ _
  | writeConfig config => exact Driver.retains_of_knows fun _ => Driver.knows_writeConfig config

/-- What a routine that writes to the part has done when it succeeds. -/
theorem settled_of_perform {d d' : Driver β} (hlaid : Laid d.state) {routine : Routine}
    (hwrites : routine.writes = true) (h : routine.perform d = .ok () d') :
    if routine.isEmpty then Driver.callsOf routine.perform d = []
    else Settled (d.state.geometry.any fun g => g.part.features.contains .flagStatus)
      (Driver.callsOf routine.perform d) := by
  have hflagged : (d.state.geometry.any fun g => g.part.features.contains .flagStatus) =
      d.state.geometry.any (·.useFlagStatus) := by
    cases hgeometry : d.state.geometry with
    | none => rfl
    | some g =>
      obtain ⟨part, settings, rfl⟩ := hlaid g hgeometry
      rfl
  rw [hflagged]
  cases routine with
  | scan => cases hwrites
  | writeStatus status => exact writeStatus_settled h
  | writeConfig config => exact writeConfig_settled h
  | call request =>
    have hsucceeds : request.Succeeds d d' := by
      cases request with
      | read offset length => cases hwrites
      | program offset data => exact h
      | erase offset length => exact h
    obtain ⟨g, hlayout, -⟩ := hsucceeds.visits
    have hgeometry := (DriverState.geometry_of_layout? hlayout).2
    obtain ⟨part, settings, rfl⟩ := hlaid g hgeometry
    have hsettled := hsucceeds.settled hwrites hlayout Geometry.erases_derive
    have hcalls : Driver.callsOf (Routine.call request).perform d = request.callsOn d := by
      cases request with
      | read offset length => cases hwrites
      | program offset data => rfl
      | erase offset length => rfl
    rw [hcalls, hgeometry]
    simpa [isEmpty] using hsettled

end Routine

open Driver in
/-- In any run of scans, requests and register writes on any bus, all calls keep to the command
protocol. A program, an erase or a register write that succeeds after such a run ends with a
command that changes the part and with the checks of it, the last of which has shown the part to
be ready, also by its flag status if the part has one; it does nothing if there is nothing to
write. -/
theorem routines_keep_protocol {β : Type} [SpiBus β] (bus : β) (settings : FlashSettings)
    (lockCheck : Option (Nat → Nat → Bool)) (routines : List Routine) :
    let start := setLockCheck lockCheck (create bus settings)
    Orderly none (callsOf (Routine.run routines) start) ∧
    ∃ d, Routine.run routines start = .ok () d ∧
      ∀ (routine : Routine) d', routine.writes = true → routine.perform d = .ok () d' →
        if routine.isEmpty then callsOf routine.perform d = []
        else Settled (d.state.geometry.any fun g => g.part.features.contains .flagStatus)
          (callsOf routine.perform d) := by
  intro start
  have horderly : orderlyConduct.allows (callsOf (Routine.run routines) start) :=
    Conduct.allows_callsOf (fun d hd => .inl ⟨(), Routine.keeps_run Routine.orderly_perform
      routines hd⟩) start
  have hstart : Retains Laid start := fun g hg => by cases hg
  obtain ⟨d, hrun, hlaid⟩ := Routine.keeps_run Routine.laid_perform routines hstart
  exact ⟨horderly none, d, hrun, fun routine d' hwrites h =>
    Routine.settled_of_perform hlaid hwrites h⟩

end NorFlash
