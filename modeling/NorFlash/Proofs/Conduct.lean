import NorFlash.Proofs.DriverRules
import NorFlash.Proofs.ScriptedDriver
import NorFlash.Proofs.Stack

/-!
Kinds of calls that the driver makes on its bus. When commands with certain frames and write
sequences make calls of a kind, and calls of that kind one after the other are of that kind, then
so are the calls of a request and of a scan, whether or not they succeed.
-/
namespace NorFlash

/-- A kind of sequences of calls, and the frames with which commands make such sequences. -/
structure Conduct where
  allows : List BusCall → Prop
  /-- The frames that may be sent on their own. -/
  plain : Frame → Prop
  /-- The frames that may be sent behind a write enable. -/
  enabled : Frame → Prop
  nil : allows []
  append {calls more : List BusCall} : allows calls → allows more → allows (calls ++ more)
  command {frame : Frame} {payload : Option ByteArray} {room : Option Nat} {length : Nat}
    {calls : List BusCall} {failure : Option Error} : plain frame →
    Sent (Command.transfers frame.bytes payload room length) calls failure → allows calls
  write {flagged : Bool} {settings : FlashSettings} {frame : Frame} {payload : Option ByteArray}
    {calls : List BusCall} {failure : Option Error} : enabled frame →
    Performed flagged (Phase.write settings frame payload) calls failure → allows calls
  release : allows [.release]
  selectUpper (upper : Bool) : allows [.selectUpper upper]

/-- The request as an operation of the driver. -/
def Call.perform {β : Type} [SpiBus β] : Call → Driver.Action β Unit
  | read offset length => do
    let _ ← Driver.read offset length
  | program offset data => Driver.program offset data
  | erase offset length => Driver.erase offset length

namespace Conduct

variable {β α : Type} {conduct : Conduct} {before : List BusCall}

/-- Only calls of the kind have been made since these. -/
def Since (conduct : Conduct) (before : List BusCall) (d : Driver (Traced β)) : Prop :=
  ∃ calls, d.bus.calls = before ++ calls ∧ conduct.allows calls

theorem since_traced (d : Driver β) : conduct.Since [] d.traced :=
  ⟨[], rfl, conduct.nil⟩

/-- What has been noted of an operation over a bus without any calls before. -/
theorem allows_callsOf {x : Driver.Action (Traced β) α}
    (h : Driver.Keeps (conduct.Since []) x) (d : Driver β) :
    conduct.allows (Driver.callsOf x d) := by
  unfold Driver.callsOf
  rcases h d.traced (since_traced d) with ⟨value, d', hx, calls, hcalls, hallowed⟩ |
    ⟨cause, d', hx, calls, hcalls, hallowed⟩
  · rw [hx]
    change conduct.allows d'.bus.calls
    rwa [hcalls]
  · rw [hx]
    change conduct.allows d'.bus.calls
    rwa [hcalls]

/-- A change of the state alone makes no calls. -/
theorem Since.state {d : Driver (Traced β)} (h : conduct.Since before d) (state : DriverState) :
    conduct.Since before ⟨d.bus, state⟩ :=
  h

theorem keeps_of_carries {x : Driver.Action (Traced β) α}
    (h : ∀ state, ∃ flagged phases after Q, Driver.Carries flagged state phases x after Q ∧
      ∀ calls failure, Performed flagged phases calls failure → conduct.allows calls) :
    Driver.Keeps (conduct.Since before) x := by
  rintro ⟨⟨bus, earlier⟩, state⟩ ⟨calls, hcalls, hallowed⟩
  obtain ⟨flagged, phases, after, Q, hcarries, hphases⟩ := h state
  have hend := hcarries bus earlier
  have hsince {more : List BusCall} {failure : Option Error}
      (performed : Performed flagged phases more failure) :
      ∃ calls', earlier ++ more = before ++ calls' ∧ conduct.allows calls' := by
    refine ⟨calls ++ more, ?_, conduct.append hallowed (hphases more failure performed)⟩
    rw [← List.append_assoc, ← hcalls]
  generalize x ⟨⟨bus, earlier⟩, state⟩ = r at hend
  cases hend with
  | ok performed gives => exact .inl ⟨_, _, rfl, hsince performed⟩
  | error performed => exact .inr ⟨_, _, rfl, hsince performed⟩

section Accesses

variable [SpiBus β]

theorem keeps_exchange {frame : Frame} (hframe : conduct.plain frame)
    (payload : Option ByteArray) (room : Option Nat) (length : Nat) :
    Driver.Keeps (conduct.Since before) (Driver.onBus
      (Command.exchange frame.bytes payload room length) : Driver.Action (Traced β) ByteArray) :=
  keeps_of_carries fun state => ⟨false, _, _, _, Driver.carries_exchange false state _ _ _ _,
    fun _ _ h => conduct.command hframe h.of_command⟩

omit [SpiBus β] in
theorem keeps_modifyBus {call : BusCall} (hcall : conduct.allows [call]) (change : β → β) :
    Driver.Keeps (conduct.Since before)
      (Driver.modifyBus (Traced.after call change) : Driver.Action (Traced β) Unit) := by
  rintro ⟨⟨bus, earlier⟩, state⟩ ⟨calls, rfl, hallowed⟩
  exact .inl ⟨(), _, rfl, calls ++ [call], List.append_assoc before calls [call],
    conduct.append hallowed hcall⟩

theorem keeps_release :
    Driver.Keeps (conduct.Since before)
      (Driver.modifyBus SpiBus.release : Driver.Action (Traced β) Unit) :=
  keeps_modifyBus conduct.release SpiBus.release

theorem keeps_selectUpper (upper : Bool) :
    Driver.Keeps (conduct.Since before)
      (Driver.modifyBus (SpiBus.selectUpper upper) : Driver.Action (Traced β) Unit) :=
  keeps_modifyBus (conduct.selectUpper upper) (SpiBus.selectUpper upper)

theorem keeps_write {frame : Frame} (hframe : conduct.enabled frame)
    (payload : Option ByteArray) :
    Driver.Keeps (conduct.Since before)
      (Driver.write frame payload : Driver.Action (Traced β) Unit) :=
  keeps_of_carries fun _ =>
    ⟨_, _, _, _, Driver.carries_write rfl frame payload, fun _ _ h => conduct.write hframe h⟩

theorem keeps_readRegister {op : Opcode} (hop : conduct.plain (.ofOpcode op.byte)) :
    Driver.Keeps (conduct.Since before)
      (Driver.readRegister op : Driver.Action (Traced β) UInt8) :=
  (keeps_exchange hop none (some 1) 1).bind fun _ => .pure _

theorem keeps_send {frame : Frame} (hframe : conduct.plain frame) (payload : ByteArray) :
    Driver.Keeps (conduct.Since before)
      (Driver.onBus (Command.send frame.bytes payload) : Driver.Action (Traced β) Unit) := by
  rw [Command.send, Driver.onBus_bind]
  exact (keeps_exchange hframe (some payload) none payload.size).bind fun _ => .pure _

theorem keeps_receive {frame : Frame} (hframe : conduct.plain frame) (length : Nat) :
    Driver.Keeps (conduct.Since before)
      (Driver.receive frame length : Driver.Action (Traced β) ByteArray) :=
  (keeps_exchange hframe none (some length) length).bind fun _ =>
    keeps_release.bind fun _ => .pure _

end Accesses

section Scan

variable [SpiBus β]

/-- The registers that are accessed while the part is prepared. -/
structure Prepares (conduct : Conduct) : Prop where
  status : conduct.plain (.ofOpcode Opcode.readStatus.byte)
  config : conduct.plain (.ofOpcode Opcode.readConfig.byte)
  bank (part : Part) : conduct.plain (.ofOpcode (Driver.bankCommands part).1.byte)
  fourByte : conduct.plain (.ofOpcode Opcode.enterFourByte.byte)
  writeStatus : conduct.enabled (.ofOpcode Opcode.writeStatus.byte)

/-- The commands of their own that the preparation sends. -/
def preparing : List Opcode :=
  [.readStatus, .readConfig, .readBank, .readExtendedAddress, .enterFourByte]

omit [SpiBus β] in
theorem prepares_of_plain (hplain : ∀ op ∈ preparing, conduct.plain (.ofOpcode op.byte))
    (hwrite : conduct.enabled (.ofOpcode Opcode.writeStatus.byte)) : conduct.Prepares where
  status := hplain .readStatus (by decide)
  config := hplain .readConfig (by decide)
  bank part := by
    unfold Driver.bankCommands
    split
    · exact hplain .readBank (by decide)
    · exact hplain .readExtendedAddress (by decide)
  fourByte := hplain .enterFourByte (by decide)
  writeStatus := hwrite

variable (hprepares : conduct.Prepares)
include hprepares

theorem keeps_writeConfig (config : UInt8) :
    Driver.Keeps (conduct.Since before)
      (Driver.writeConfig config : Driver.Action (Traced β) Unit) :=
  (keeps_readRegister hprepares.status).bind fun _ => keeps_write hprepares.writeStatus _

theorem keeps_prepare (part : Part) :
    Driver.Keeps (conduct.Since before)
      (Driver.prepare part : Driver.Action (Traced β) Geometry) := by
  have hquad : Driver.Keeps (conduct.Since before)
      (Driver.enableQuad part : Driver.Action (Traced β) Unit) :=
    .enableQuad (keeps_readRegister hprepares.status) (keeps_readRegister hprepares.config)
      (fun _ => keeps_write hprepares.writeStatus _) (keeps_writeConfig hprepares) part
  have haddressing (g : Geometry) : Driver.Keeps (conduct.Since before)
      (Driver.setUpAddressing part g : Driver.Action (Traced β) Unit) :=
    .setUpAddressing (keeps_send hprepares.fourByte .empty) keeps_release
      (fun part => keeps_receive (hprepares.bank part) 1) (fun _ _ h => h.state _) part g
  exact .prepare (keeps_write hprepares.writeStatus _)
    (.equip (fun _ h => h.state _) hquad haddressing)

theorem keeps_scan (hid : conduct.plain (.ofOpcode Opcode.readId.byte)) :
    Driver.Keeps (conduct.Since before) (Driver.scan : Driver.Action (Traced β) Geometry) :=
  .scan (fun _ _ h => h.state _) (fun _ h => h.state _)
    (.identify (keeps_exchange hid none (some Part.maxIdLength) _) _)
    fun part => keeps_prepare hprepares part

end Scan

section Requests

variable [SpiBus β] (henabled : ∀ frame, conduct.enabled frame)
include henabled

theorem keeps_visit (g : Geometry) (position : Nat) :
    Driver.Keeps (conduct.Since before)
      (Driver.visit g position : Driver.Action (Traced β) Nat) := by
  refine .visit keeps_selectUpper (fun _ _ h => h.state _) (fun g address => ?_) g position
  refine Driver.Keeps.getState.bind fun state => ?_
  cases state.bank with
  | none => exact .pure _
  | some bank =>
    dsimp only
    split
    · exact .pure _
    · exact (keeps_write (henabled _) _).bind fun _ => .modifyState fun d h => h.state _

theorem keeps_call (hread : ∀ (mode : ReadMode) width address,
      conduct.plain ((Frame.withAddress mode.opcode.byte width address).withDummy mode.dummyBytes))
    (call : Call) :
    Driver.Keeps (conduct.Since before) (call.perform : Driver.Action (Traced β) Unit) := by
  have hvisit (g : Geometry) (position : Nat) : Driver.Keeps (conduct.Since before)
      (Driver.visit g position : Driver.Action (Traced β) Nat) := keeps_visit henabled g position
  cases call with
  | read offset length =>
    exact (Driver.Keeps.read hvisit (fun mode width address length =>
      keeps_receive (hread mode width address) length) offset length).bind fun _ => .pure _
  | program offset data =>
    exact .program hvisit (fun frame payload => keeps_write (henabled frame) payload) offset data
  | erase offset length =>
    exact .erase hvisit (fun frame payload => keeps_write (henabled frame) payload) offset length

end Requests

end Conduct

end NorFlash
