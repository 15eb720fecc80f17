import NorFlash.Proofs.CommandProtocol
import NorFlash.Proofs.TableOrder

/-!
The lifecycle of a driver over any run of its operations and on any bus: what it knows of the part
is what the latest scan has found, and nothing when that scan failed. A scan sends its read-ID
commands first, up to the first that identifies a part.
-/
namespace NorFlash

section Probing

/-- The transfers of a read-ID command. -/
def Command.idRequests : List Transfer :=
  Command.transfers (Bytes.ofList [Opcode.readId.byte]) none (some Part.maxIdLength)
    Part.maxIdLength

/-- A read-ID command that succeeds, with the response to it. -/
def Identifies (calls : List BusCall) (response : List UInt8) : Prop :=
  Sent Command.idRequests calls none ∧ ∃ bytes, BusCall.lastReceived? calls = some bytes ∧
    response = Bytes.toList (Bytes.resize bytes Part.maxIdLength)

/-- The calls of a read-ID command, and the entry of the table that answers for the response. -/
inductive Probe : List BusCall → Option Part → Prop where
  | known {calls : List BusCall} {response : List UInt8} {part : Part}
    (identifies : Identifies calls response) (first : part.AnswersFirst response) :
    Probe calls (some part)
  | unknown {calls : List BusCall} {response : List UInt8}
    (identifies : Identifies calls response)
    (silent : ∀ part ∈ Part.table, ¬ part.Answers response) : Probe calls none
  | failed {calls : List BusCall} {cause : Error}
    (sent : Sent Command.idRequests calls (some cause)) : Probe calls none

/-- Looking the response up tells which of these a command that succeeds is. -/
theorem Probe.of_identifies {calls : List BusCall} {response : List UInt8}
    (h : Identifies calls response) : Probe calls (Part.findById? response) := by
  cases hfound : Part.findById? response with
  | some part => exact .known h (Part.findById?_eq_some_iff.mp hfound)
  | none =>
    have hsilent := Part.findById?_eq_none_iff.mp hfound
    exact .unknown h fun part hpart hanswers => hsilent part hpart hanswers.1 hanswers.2

/-- This many read-ID commands in a row, none of which finds a part. -/
inductive Misses : Nat → List BusCall → Prop where
  | none : Misses 0 []
  | again {attempts : Nat} {calls more : List BusCall} (miss : Probe calls none)
    (rest : Misses attempts more) : Misses (attempts + 1) (calls ++ more)

/-- A transfer that starts a read-ID command. -/
def BusCall.ReadsId : BusCall → Prop
  | transfer request _ =>
    request.framing.first = true ∧
      (request.payload.bind fun command => (Bytes.toList command).head?) = some Opcode.readId.byte
  | _ => False

/-- The calls of a scan under these settings, and what it comes to. -/
inductive Scanned (settings : FlashSettings) :
    List BusCall → Except Error Geometry → Prop where
  | found {attempts : Nat} {misses hit rest : List BusCall} {part : Part}
    {outcome : Except Error Geometry} (left : attempts < Driver.scanAttempts)
    (missed : Misses attempts misses) (probe : Probe hit (some part))
    (onlyThese : ∀ call ∈ rest, ¬ call.ReadsId)
    (layout : ∀ g, outcome = .ok g → g = .derive part settings) :
    Scanned settings (misses ++ (hit ++ rest)) outcome
  | missed {calls : List BusCall} (missed : Misses Driver.scanAttempts calls) :
    Scanned settings calls (.error .partNotFound)

end Probing

namespace Driver

section Probing

variable {β : Type} [SpiBus β]

theorem readId_probes (d : Driver (Traced β)) : ∃ found calls d', Probe calls found ∧
    readId d = .ok found d' ∧ d'.bus.calls = d.bus.calls ++ calls := by
  obtain ⟨⟨bus, before⟩, state⟩ := d
  have hexchange := carries_exchange false state (Bytes.ofList [Opcode.readId.byte]) none
    (some Part.maxIdLength) Part.maxIdLength bus before
  generalize hr : (onBus (Command.exchange (Bytes.ofList [Opcode.readId.byte]) none
    (some Part.maxIdLength) Part.maxIdLength) : Action (Traced β) ByteArray)
      ⟨⟨bus, before⟩, state⟩ = r at hexchange
  cases hexchange with
  | @ok calls bytes bus' performed gives =>
    obtain ⟨echo, hreceived⟩ := gives
    have hlast : BusCall.lastReceived? calls = some bytes := by
      rw [BusCall.lastReceived?, hreceived, List.getLast?_concat]
    exact ⟨_, calls, _, .of_identifies ⟨performed.of_command, bytes, hlast, rfl⟩,
      bind_of_ok (attempt_of_ok hr) _, rfl⟩
  | error performed =>
    exact ⟨none, _, _, .failed performed.of_command, bind_of_ok (attempt_of_error hr) _, rfl⟩

/-- Read-ID commands up to the first that finds a part, or all of them. -/
theorem identify_probes (attempts : Nat) (d : Driver (Traced β)) :
    (∃ misses, Misses attempts misses ∧ ∃ d',
      identify attempts d = .error .partNotFound d' ∧ d'.bus.calls = d.bus.calls ++ misses) ∨
    ∃ missed misses hit part, missed < attempts ∧ Misses missed misses ∧
      Probe hit (some part) ∧ ∃ d',
        identify attempts d = .ok part d' ∧ d'.bus.calls = d.bus.calls ++ (misses ++ hit) := by
  induction attempts generalizing d with
  | zero => exact .inl ⟨[], .none, d, rfl, (List.append_nil _).symm⟩
  | succ attempts ih =>
    obtain ⟨found, calls, d₁, hprobe, hread, hcalls⟩ := readId_probes d
    cases found with
    | some part =>
      exact .inr ⟨0, [], calls, part, Nat.succ_pos attempts, .none, hprobe, d₁,
        bind_of_ok hread _, hcalls⟩
    | none =>
      have hrest : identify (attempts + 1) d = identify attempts d₁ := bind_of_ok hread _
      rw [hrest]
      rcases ih d₁ with ⟨misses, hmisses, d', hmissed, hmore⟩ |
        ⟨missed, misses, hit, part, hleft, hmisses, hhit, d', hfound, hmore⟩
      · refine .inl ⟨calls ++ misses, hmisses.again hprobe, d', hmissed, ?_⟩
        rw [hmore, hcalls, List.append_assoc]
      · refine .inr ⟨missed + 1, calls ++ misses, hit, part, Nat.succ_lt_succ hleft,
          hmisses.again hprobe, hhit, d', hfound, ?_⟩
        rw [hmore, hcalls, List.append_assoc, List.append_assoc]

end Probing

end Driver

section Unprobed

theorem Frame.not_readsId (frame : Frame) (h : frame.opcode ≠ Opcode.readId.byte)
    {payload : Option ByteArray} {room : Option Nat} {length : Nat} :
    ∀ request ∈ Command.transfers frame.bytes payload room length, ∀ answer,
      ¬ (BusCall.transfer request answer).ReadsId := by
  intro request hrequest answer
  rcases List.mem_cons.mp hrequest with rfl | hdata
  · rintro ⟨-, hid⟩
    exact h (Option.some.inj hid)
  · split at hdata
    · cases hdata
    · rw [List.mem_singleton.mp hdata]
      rintro ⟨hfirst, -⟩
      cases hfirst

theorem Check.not_readsId {flagged : Bool} :
    ∀ request ∈ Check.requests flagged, ∀ answer,
      ¬ (BusCall.transfer request answer).ReadsId := by
  intro request hrequest
  obtain ⟨_, hregister, hmem⟩ := List.mem_flatten.mp hrequest
  obtain ⟨op, hop, rfl⟩ := List.mem_map.mp hregister
  have hid : op ≠ .readId := by
    rintro rfl
    cases flagged <;> exact absurd hop (by decide)
  exact Frame.not_readsId (.ofOpcode op.byte) (fun h => hid (Opcode.byte_injective h))
    request hmem

/-- Calls without read-ID commands. -/
def unprobedConduct : Conduct where
  allows calls := ∀ call ∈ calls, ¬ call.ReadsId
  plain frame := frame.opcode ≠ Opcode.readId.byte
  enabled frame := frame.opcode ≠ Opcode.readId.byte
  nil _ hcall := by cases hcall
  append h hmore := List.forall_mem_append.mpr ⟨h, hmore⟩
  command {frame _ _ _ _ _} hplain sent := sent.forall_calls (frame.not_readsId hplain)
  write {_ settings frame payload _ _} hframe performed := by
    refine performed.forall_calls Check.not_readsId (fun _ => id) id (fun requests hmem => ?_)
      fun upper hmem => absurd hmem (Phase.unrouted_write settings frame payload upper)
    simp only [Phase.write, List.mem_cons, Phase.command.injEq, reduceCtorEq, List.not_mem_nil,
      or_false] at hmem
    rcases hmem with rfl | rfl
    · exact Frame.not_readsId (.ofOpcode Opcode.writeEnable.byte) (by decide)
    · exact frame.not_readsId hframe
  release := List.forall_mem_singleton.mpr id
  selectUpper _ := List.forall_mem_singleton.mpr id

theorem unprobedConduct_plain (op : Opcode) (h : op ≠ .readId) :
    unprobedConduct.plain (.ofOpcode op.byte) :=
  fun heq => h (Opcode.byte_injective heq)

theorem unprobedConduct_prepares : unprobedConduct.Prepares := by
  have hnone : ∀ op ∈ Conduct.preparing, op ≠ .readId := by decide
  exact Conduct.prepares_of_plain (fun op hop => unprobedConduct_plain op (hnone op hop))
    (unprobedConduct_plain .writeStatus (by decide))

end Unprobed

namespace Driver

variable {β : Type} [SpiBus β]

/-- The state of a driver that has started to scan. -/
def scanning (state : DriverState) : DriverState :=
  { state with lifecycle := .scanning, geometry := none, bank := none }

theorem scan_of_error {d d' : Driver β} {cause : Error}
    (h : bringUp ⟨d.bus, scanning d.state⟩ = .error cause d') :
    scan d = .error cause ⟨d'.bus,
      { d'.state with lifecycle := .uninitialized, geometry := none, bank := none }⟩ :=
  bind_of_ok (attempt_of_error h) _

theorem scan_of_ok {d d' : Driver β} {g : Geometry}
    (h : bringUp ⟨d.bus, scanning d.state⟩ = .ok g d') :
    scan d = .ok g ⟨d'.bus, { d'.state with lifecycle := .ready }⟩ :=
  bind_of_ok (attempt_of_ok h) _

/-- The calls of a scan on any bus. -/
theorem scan_scanned (d : Driver β) :
    Scanned d.state.settings (callsOf scan d) (answerOf (scan d)) := by
  have hforget := simulates_scan (Traced.busSimulation_forgets d.bus)
  let start : Driver (Traced β) := ⟨⟨d.bus, []⟩, scanning d.state⟩
  have hbringUp : bringUp start = (identify scanAttempts >>= prepare) start := by
    rw [bringUp_eq_prepare]
  rcases identify_probes scanAttempts start with ⟨misses, hmisses, d₁, hmissed, hcalls⟩ |
    ⟨attempts, misses, hit, part, hleft, hmisses, hhit, d₁, hfound, hcalls⟩
  · obtain ⟨hscan, hnoted⟩ := error_of_traced hforget
      (scan_of_error (d := d.traced) (hbringUp.trans (bind_of_error hmissed _)))
    rw [hscan, hnoted]
    change Scanned d.state.settings d₁.bus.calls (.error .partNotFound)
    rw [hcalls]
    exact .missed hmisses
  · have hsince : unprobedConduct.Since d₁.bus.calls d₁ :=
      ⟨[], (List.append_nil _).symm, unprobedConduct.nil⟩
    have hrest {rest : List BusCall} : d₁.bus.calls ++ rest = misses ++ (hit ++ rest) := by
      rw [hcalls]
      exact List.append_assoc misses hit rest
    rcases Conduct.keeps_prepare unprobedConduct_prepares part d₁ hsince with
      ⟨g, d₂, hprepare, rest, hmore, hallowed⟩ | ⟨cause, d₂, hprepare, rest, hmore, hallowed⟩
    · obtain ⟨hscan, hnoted⟩ := ok_of_traced hforget
        (scan_of_ok (d := d.traced) (hbringUp.trans ((bind_of_ok hfound _).trans hprepare)))
      obtain ⟨hstate, -⟩ := identify_records hfound
      obtain ⟨hlayout, -⟩ := prepare_records (by rw [hstate]; rfl) hprepare
      rw [hscan, hnoted]
      change Scanned d.state.settings d₂.bus.calls (.ok g)
      rw [hmore, hrest]
      refine .found hleft hmisses hhit hallowed fun g' hg' => ?_
      cases hg'
      rw [hlayout, hstate]
      rfl
    · obtain ⟨hscan, hnoted⟩ := error_of_traced hforget
        (scan_of_error (d := d.traced) (hbringUp.trans ((bind_of_ok hfound _).trans hprepare)))
      rw [hscan, hnoted]
      change Scanned d.state.settings d₂.bus.calls (.error cause)
      rw [hmore, hrest]
      exact .found hleft hmisses hhit hallowed fun g' hg' => by cases hg'

end Driver

/-- The operations of a driver, and what is done to its bus behind its back. -/
inductive Operation (β : Type) where
  | routine (routine : Routine)
  | readId
  | readStatus
  | readFlagStatus
  | readConfig
  | isReady
  | waitReady (timeout : UInt32)
  | write (frame : Frame) (payload : Option ByteArray)
  | receive (frame : Frame) (length : Nat)
  | readBank
  | setLockCheck (check : Option (Nat → Nat → Bool))
  | useBus (change : β → β)

/-- A driver in use, with the result of its latest scan. -/
structure Session (β : Type) where
  driver : Driver β
  scanned : Option (Except Error Geometry) := none

theorem Driver.Keeps.stateAfter {β α : Type} {I : Driver β → Prop} {x : Driver.Action β α}
    (hx : Driver.Keeps I x) {d : Driver β} (hd : I d) : I (NorFlash.stateAfter (x d)) := by
  rcases hx d hd with ⟨value, d', h, hd'⟩ | ⟨cause, d', h, hd'⟩
  · rwa [h]
  · rwa [h]

section Sessions

variable {β : Type} [SpiBus β]

/-- The driver that an operation leaves, whether or not it succeeds. -/
def Operation.perform (operation : Operation β) (d : Driver β) : Driver β :=
  match operation with
  | .routine inner => stateAfter (inner.perform d)
  | .readId => stateAfter (Driver.readId d)
  | .readStatus => stateAfter (Driver.readStatus d)
  | .readFlagStatus => stateAfter (Driver.readFlagStatus d)
  | .readConfig => stateAfter (Driver.readConfig d)
  | .isReady => stateAfter (Driver.isReady d)
  | .waitReady timeout => stateAfter (Driver.waitReady timeout d)
  | .write frame payload => stateAfter (Driver.write frame payload d)
  | .receive frame length => stateAfter (Driver.receive frame length d)
  | .readBank => stateAfter (Driver.readBank d)
  | .setLockCheck check => d.setLockCheck check
  | .useBus change => d.mapBus change

def Session.step (session : Session β) (operation : Operation β) : Session β where
  driver := operation.perform session.driver
  scanned :=
    match operation with
    | .routine .scan => some (answerOf (Driver.scan session.driver))
    | _ => session.scanned

/-- A new driver after a run of operations. -/
def Session.run (bus : β) (settings : FlashSettings) (operations : List (Operation β)) :
    Session β :=
  operations.foldl step { driver := .create bus settings }

/-- What a driver knows, given the result of its latest scan. -/
inductive Consistent (settings : FlashSettings) :
    Option (Except Error Geometry) → DriverState → Prop where
  | ready {g : Geometry} {state : DriverState} (chosen : state.settings = settings)
    (lifecycle : state.lifecycle = .ready) (geometry : state.geometry = some g)
    (bank : state.bank ≠ none ↔
      settings.addressing = .bankRegister ∧ Geometry.bankSize < g.size) :
    Consistent settings (some (.ok g)) state
  | unknown {scanned : Option (Except Error Geometry)} {state : DriverState}
    (failed : ∀ g, scanned ≠ some (.ok g)) (chosen : state.settings = settings)
    (lifecycle : state.lifecycle = .uninitialized) (geometry : state.geometry = none)
    (bank : state.bank = none) : Consistent settings scanned state

variable {settings : FlashSettings} {scanned : Option (Except Error Geometry)}

theorem consistent_steadfast : Driver.Steadfast (Consistent settings scanned) where
  routed upper h := by
    cases h with
    | ready chosen lifecycle geometry bank => exact .ready chosen lifecycle geometry bank
    | unknown failed chosen lifecycle geometry bank =>
      exact .unknown failed chosen lifecycle geometry bank
  banked current hbank h := by
    cases h with
    | ready chosen lifecycle geometry bank =>
      rw [hbank] at bank
      refine .ready chosen lifecycle geometry ?_
      simpa using bank
    | unknown failed chosen lifecycle geometry bank =>
      rw [hbank] at bank
      cases bank

theorem Consistent.lockCheck {state : DriverState} (h : Consistent settings scanned state)
    (check : Option (Nat → Nat → Bool)) :
    Consistent settings scanned { state with lockCheck := check } := by
  cases h with
  | ready chosen lifecycle geometry bank => exact .ready chosen lifecycle geometry bank
  | unknown failed chosen lifecycle geometry bank =>
    exact .unknown failed chosen lifecycle geometry bank

theorem Consistent.settings_eq {state : DriverState} (h : Consistent settings scanned state) :
    state.settings = settings := by
  cases h with
  | ready chosen => exact chosen
  | unknown _ chosen => exact chosen

theorem consistent_scan {d : Driver β} (h : Consistent settings scanned d.state) :
    Consistent settings (some (answerOf (Driver.scan d))) (stateAfter (Driver.scan d)).state := by
  have hchosen : d.state.settings = settings := h.settings_eq
  cases hbringUp : Driver.bringUp ⟨d.bus, Driver.scanning d.state⟩ with
  | error cause d' =>
    have hsettings : (stateAfter (Driver.scan d)).state.settings = settings :=
      Driver.Keeps.stateAfter (I := Driver.Retains (·.settings = settings))
        (Driver.retains_scan (fun _ _ h => h) (fun _ h => h) (fun _ _ h => h) fun _ _ h => h)
        hchosen
    rw [Driver.scan_of_error hbringUp] at hsettings ⊢
    exact .unknown (fun g hg => by cases hg) hsettings rfl rfl rfl
  | ok g d' =>
    obtain ⟨ready, hscan⟩ : ∃ ready, Driver.scan d = .ok g ready :=
      ⟨_, Driver.scan_of_ok hbringUp⟩
    obtain ⟨part, -, rfl, hkept, hidentified⟩ := Driver.identified_of_scan hscan
    have hsettings : ready.state.settings = settings := hkept.trans hchosen
    obtain ⟨hready, hgeometry⟩ := DriverState.geometry_of_layout? hidentified.layout
    have hregister := hidentified.register
    have hunused := hidentified.unused
    rw [hsettings] at hgeometry hregister hunused
    rw [hscan, hchosen]
    refine .ready hsettings hready hgeometry ⟨fun hused => ?_, fun hbanked => ?_⟩
    · exact ⟨Decidable.byContradiction fun h => hused (hunused (.inl h)),
        Nat.lt_of_not_le fun h => hused (hunused (.inr h))⟩
    · obtain ⟨current, hbank⟩ := hregister hbanked.1 hbanked.2
      intro hnone
      cases hbank.symm.trans hnone

theorem Session.consistent_step {session : Session β}
    (h : Consistent settings session.scanned session.driver.state) (operation : Operation β) :
    Consistent settings (session.step operation).scanned (session.step operation).driver.state := by
  have hknows {α : Type} {x : Driver.Action β α}
      (hx : ∀ state, Driver.Keeps (Driver.Knows state) x) :
      Consistent settings session.scanned (stateAfter (x session.driver)).state :=
    Driver.Keeps.stateAfter (Driver.retains_of_knows hx) h
  cases operation with
  | routine routine =>
    cases routine with
    | scan =>
      have hsame : stateAfter (Routine.scan.perform session.driver) =
          stateAfter (Driver.scan session.driver) := by
        change stateAfter ((Driver.scan >>= fun _ => pure ()) session.driver) = _
        cases hscan : Driver.scan session.driver with
        | ok g d' => rw [bind_of_ok hscan]; rfl
        | error cause d' => rw [bind_of_error hscan]; rfl
      change Consistent settings (some (answerOf (Driver.scan session.driver)))
        (stateAfter (Routine.scan.perform session.driver)).state
      rw [hsame]
      exact consistent_scan h
    | call request =>
      exact Driver.Keeps.stateAfter (Driver.retains_call consistent_steadfast request) h
    | writeStatus status => exact hknows fun _ => Driver.knows_write _ _
    | writeConfig config => exact hknows fun _ => Driver.knows_writeConfig config
  | readId => exact hknows fun _ => .readId (Driver.knows_onBus _)
  | readStatus => exact hknows fun _ => Driver.knows_readRegister _
  | readFlagStatus => exact hknows fun _ => Driver.knows_readRegister _
  | readConfig => exact hknows fun _ => Driver.knows_readRegister _
  | isReady => exact hknows fun _ => Driver.knows_isReady
  | waitReady timeout => exact hknows fun _ => Driver.knows_waitReady timeout
  | write frame payload => exact hknows fun _ => Driver.knows_write frame payload
  | receive frame length => exact hknows fun _ => Driver.knows_receive frame length
  | readBank => exact hknows fun _ => Driver.knows_readBank
  | setLockCheck check => exact h.lockCheck check
  | useBus change => exact h

theorem Session.consistent_run (bus : β) (settings : FlashSettings)
    (operations : List (Operation β)) :
    Consistent settings (run bus settings operations).scanned
      (run bus settings operations).driver.state := by
  have hsteps (session : Session β)
      (h : Consistent settings session.scanned session.driver.state) :
      Consistent settings (operations.foldl step session).scanned
        (operations.foldl step session).driver.state := by
    induction operations generalizing session with
    | nil => exact h
    | cons operation operations ih => exact ih _ (consistent_step h operation)
  exact hsteps _ (.unknown (fun g h => by cases h) rfl rfl rfl rfl)

end Sessions

/-- What can be seen of a driver that knows what its latest scan has found. -/
theorem Consistent.visible {β : Type} {settings : FlashSettings}
    {scanned : Option (Except Error Geometry)} {d : Driver β}
    (h : Consistent settings scanned d.state) :
    d.state.lifecycle ≠ .scanning ∧ (∀ g, d.geometry? = .ok g ↔ scanned = some (.ok g)) ∧
      ((∃ bank, d.currentBank? = some bank) ↔ d.state.lifecycle = .ready ∧
        settings.addressing = .bankRegister ∧
        ∃ g, d.geometry? = .ok g ∧ Geometry.bankSize < g.size) := by
  generalize hstate : d.state = state at h
  cases h with
  | @ready g _ chosen lifecycle geometry bank =>
    have hgeometry : d.geometry? = .ok g := by
      rw [Driver.geometry?, hstate, lifecycle, geometry]
    have hbank : (∃ bank, d.currentBank? = some bank) ↔ state.bank ≠ none := by
      rw [Driver.currentBank?, hstate]
      cases state.bank <;> simp
    rw [lifecycle, hgeometry, hbank, bank]
    refine ⟨Lifecycle.noConfusion, fun g' => ?_, ?_⟩
    · rw [Option.some.injEq]
    · simp
  | unknown failed chosen lifecycle geometry bank =>
    have hgeometry : d.geometry? = .error .notReady := by
      rw [Driver.geometry?, hstate, lifecycle]
    rw [lifecycle, hgeometry]
    refine ⟨Lifecycle.noConfusion, fun g => ⟨fun h => ?_, fun h => absurd h (failed g)⟩, ?_⟩
    · cases h
    · rw [Driver.currentBank?, hstate, bank]
      simp

open Driver in
/-- After any run of operations, on any bus and whatever is done to it in between: the driver is
not scanning, it has a geometry exactly when the latest scan has succeeded, which is the one that
this scan has found, and it has a bank exactly when the part needs one and the settings ask for
the bank register. A scan starts with read-ID commands up to the first that finds a part, five at
most; one that fails leaves neither geometry nor bank. -/
theorem driver_follows_latest_scan {β : Type} [SpiBus β] (bus : β) (settings : FlashSettings)
    (operations : List (Operation β)) :
    let session := Session.run bus settings operations
    let d := session.driver
    d.state.lifecycle ≠ .scanning ∧
    (∀ g, d.geometry? = .ok g ↔ session.scanned = some (.ok g)) ∧
    ((∃ bank, d.currentBank? = some bank) ↔ d.state.lifecycle = .ready ∧
      settings.addressing = .bankRegister ∧
      ∃ g, d.geometry? = .ok g ∧ Geometry.bankSize < g.size) ∧
    (∀ cause d', scan d = .error cause d' → d'.state.lifecycle = .uninitialized ∧
      d'.state.geometry = none ∧ d'.currentBank? = none) ∧
    Scanned settings (callsOf scan d) (answerOf (scan d)) := by
  intro session d
  have hconsistent : Consistent settings session.scanned d.state :=
    Session.consistent_run bus settings operations
  obtain ⟨hidle, hgeometry, hbank⟩ := hconsistent.visible
  refine ⟨hidle, hgeometry, hbank, fun cause d' h => ?_, ?_⟩
  · have hafter := consistent_scan hconsistent
    rw [h] at hafter
    cases hafter with
    | unknown failed chosen lifecycle geometry bank =>
      have hnone : d'.state.bank = none := bank
      exact ⟨lifecycle, geometry, by rw [currentBank?, hnone]; rfl⟩
  · have hscanned := scan_scanned d
    rwa [hconsistent.settings_eq] at hscanned

end NorFlash
