import NorFlash.Proofs.CommandScript

/-!
The operations of the driver carry out their scripts, on every bus and whatever it answers. When
all of a script is carried out the state of the driver is known, else the operation fails like the
phase that failed.
-/
namespace NorFlash

namespace Driver

variable {β α κ : Type}

/-- The end of an operation that had phases to perform: it performed all of them and gave a value
that goes with its calls, or it failed like the first phase that failed. -/
inductive Ended (flagged : Bool) (phases : List Phase) (before : List BusCall)
    (after : DriverState) (Q : List BusCall → α → Prop) :
    EStateM.Result Error (Driver (Traced β)) α → Prop where
  | ok {calls : List BusCall} {value : α} {bus : β}
    (performed : Performed flagged phases calls none) (gives : Q calls value) :
    Ended flagged phases before after Q (.ok value ⟨⟨bus, before ++ calls⟩, after⟩)
  | error {calls : List BusCall} {cause : Error} {bus : β} {state : DriverState}
    (performed : Performed flagged phases calls (some cause)) :
    Ended flagged phases before after Q (.error cause ⟨⟨bus, before ++ calls⟩, state⟩)

/-- From this state the operation performs these phases, and when it performs all of them it
leaves the state `after`. -/
def Carries (flagged : Bool) (state : DriverState) (phases : List Phase)
    (x : Action (Traced β) α) (after : DriverState) (Q : List BusCall → α → Prop) : Prop :=
  ∀ bus before, Ended flagged phases before after Q (x ⟨⟨bus, before⟩, state⟩)

section Rules

variable {flagged : Bool} {state state' state'' : DriverState} {phases phases' : List Phase}
  {x : Action (Traced β) α} {Q : List BusCall → α → Prop}

theorem Carries.pure {value : α} (h : Q [] value) :
    Carries flagged state [] (Pure.pure value : Action (Traced β) α) state Q := by
  intro bus before
  have hend : Ended flagged [] before state Q (.ok value ⟨⟨bus, before ++ []⟩, state⟩) :=
    .ok .done h
  rwa [List.append_nil] at hend

theorem Carries.imp (h : Carries flagged state phases x state' Q)
    {Q' : List BusCall → α → Prop} (himp : ∀ calls value, Q calls value → Q' calls value) :
    Carries flagged state phases x state' Q' := by
  intro bus before
  have hend := h bus before
  generalize x ⟨⟨bus, before⟩, state⟩ = r at hend
  cases hend with
  | ok performed gives => exact .ok performed (himp _ _ gives)
  | error performed => exact .error performed

/-- What is known of the value of a sequence, from what is known of its two operations. -/
theorem Carries.bind (hx : Carries flagged state phases x state' Q)
    {f : α → Action (Traced β) κ} {R : α → List BusCall → κ → Prop}
    {S : List BusCall → κ → Prop}
    (hf : ∀ {first value}, Q first value →
      Carries flagged state' phases' (f value) state'' (R value))
    (hS : ∀ {first value more result}, Q first value → R value more result →
      S (first ++ more) result) :
    Carries flagged state (phases ++ phases') (x >>= f) state'' S := by
  intro bus before
  have hfirst := hx bus before
  generalize hr : x ⟨⟨bus, before⟩, state⟩ = r at hfirst
  cases hfirst with
  | error performed =>
    rw [bind_of_error hr]
    exact .error (performed.append_stopped phases')
  | @ok calls value bus' performed gives =>
    rw [bind_of_ok hr]
    have hrest := hf gives bus' (before ++ calls)
    generalize f value ⟨⟨bus', before ++ calls⟩, state'⟩ = r' at hrest
    cases hrest with
    | ok performed' gives' =>
      rw [List.append_assoc]
      exact .ok (performed.append performed') (hS gives gives')
    | error performed' =>
      rw [List.append_assoc]
      exact .error (performed.append performed')

/-- A sequence whose second operation depends on the first through the bus and the state alone. -/
theorem Carries.andThen (hx : Carries flagged state phases x state' Q)
    {f : α → Action (Traced β) κ} {R : List BusCall → κ → Prop}
    (hf : ∀ value, Carries flagged state' phases' (f value) state'' R)
    (hR : ∀ {first more result}, R more result → R (first ++ more) result) :
    Carries flagged state (phases ++ phases') (x >>= f) state'' R :=
  hx.bind (R := fun _ => R) (fun _ => hf _) fun _ h => hR h

/-- A sequence whose first operation gives a value that is known. -/
theorem Carries.bindEq {given : α}
    (hx : Carries flagged state phases x state' fun _ value => value = given)
    {f : α → Action (Traced β) κ} {R : List BusCall → κ → Prop}
    (hf : Carries flagged state' phases' (f given) state'' R)
    (hR : ∀ {first more result}, R more result → R (first ++ more) result) :
    Carries flagged state (phases ++ phases') (x >>= f) state'' R :=
  hx.bind (R := fun _ => R) (fun h => h ▸ hf) fun _ h => hR h

/-- A change of the state of the driver comes ahead of the rest. -/
theorem Carries.modifyState {change : DriverState → DriverState} {f : Unit → Action (Traced β) α}
    (h : Carries flagged (change state) phases (f ()) state' Q) :
    Carries flagged state phases (Driver.modifyState change >>= f) state' Q :=
  fun bus before => h bus before

/-- An operation that reads the state of the driver, which is known. -/
theorem Carries.getState {f : DriverState → Action (Traced β) α}
    (h : Carries flagged state phases (f state) state' Q) :
    Carries flagged state phases (Driver.getState >>= f) state' Q :=
  fun bus before => h bus before

end Rules

theorem onBus_of_error {action : EStateM Error β α} {bus bus' : β} {cause : Error}
    (h : action bus = .error cause bus') (state : DriverState) :
    onBus action ⟨bus, state⟩ = .error cause ⟨bus', state⟩ := by
  rw [onBus, h]

/-- The wait of the driver, with this many checks left. -/
def pollFrom [SpiBus β] (attempts check : Nat) : Action β Poll.Outcome :=
  Poll.untilReadyFrom 100 isReady
    (fun microseconds driver => driver.mapBus (SpiBus.delay microseconds)) attempts check

/-- The end of a wait by polling. -/
inductive Polled (flagged : Bool) (state : DriverState) (attempts : Nat)
    (before : List BusCall) : EStateM.Result Error (Driver (Traced β)) Poll.Outcome → Prop where
  | ready {calls : List BusCall} {bus : β} (check : Nat)
    (waits : Waits flagged attempts calls none) :
    Polled flagged state attempts before (.ok (.ready check) ⟨⟨bus, before ++ calls⟩, state⟩)
  | exhausted {calls : List BusCall} {bus : β}
    (waits : Waits flagged attempts calls (some .busyTimeout)) :
    Polled flagged state attempts before (.ok .exhausted ⟨⟨bus, before ++ calls⟩, state⟩)
  | error {calls : List BusCall} {bus : β} {cause : Error} {state' : DriverState}
    (waits : Waits flagged attempts calls (some cause)) :
    Polled flagged state attempts before (.error cause ⟨⟨bus, before ++ calls⟩, state'⟩)

theorem onBus_bind (action : EStateM Error β α) (f : α → EStateM Error β κ) :
    onBus (action >>= f) = onBus action >>= fun value => onBus (f value) := by
  funext ⟨bus, state⟩
  cases h : action bus with
  | ok value bus' =>
    rw [bind_of_ok (onBus_of_ok h state), onBus, bind_of_ok h]
    rfl
  | error cause bus' =>
    rw [bind_of_error (onBus_of_error h state), onBus, bind_of_error h]

section Operations

variable [SpiBus β] (flagged : Bool) (state : DriverState)

theorem carries_exchange (command : ByteArray) (payload : Option ByteArray) (room : Option Nat)
    (length : Nat) :
    Carries flagged state [.command (Command.transfers command payload room length)]
      (onBus (Command.exchange command payload room length) : Action (Traced β) ByteArray) state
      fun calls value => ∃ echo : ByteArray,
        BusCall.received calls = (if length = 0 then [] else [echo]) ++ [value] := by
  intro bus before
  let opening : Transfer :=
    { bits := command.size * 8, payload := some command, room := none,
      framing := ⟨true, length = 0⟩ }
  let data : Transfer := { bits := length * 8, payload, room, framing := ⟨false, true⟩ }
  have hrest (echo : ByteArray) (traced : Traced β)
      (hopening : SpiBus.transfer opening (⟨bus, before⟩ : Traced β) = .ok echo traced) :
      Command.exchange command payload room length (⟨bus, before⟩ : Traced β) =
        (if length = 0 then Pure.pure echo else SpiBus.transfer data) traced :=
    bind_of_ok hopening _
  cases hopening : SpiBus.transfer opening bus with
  | error cause bus' =>
    have hexchange : Command.exchange command payload room length (⟨bus, before⟩ : Traced β) =
        .error cause ⟨bus', before ++ [.transfer opening (.error cause)]⟩ :=
      bind_of_error (Traced.transfer_of_error hopening before) _
    rw [onBus_of_error hexchange]
    exact .error (.single (.command (.failed opening _ cause)))
  | ok echo bus' =>
    have hexchange := hrest echo _ (Traced.transfer_of_ok hopening before)
    by_cases hnothing : length = 0
    · rw [if_pos hnothing] at hexchange
      rw [onBus_of_ok hexchange]
      have hsent : Sent (Command.transfers command payload room length)
          [.transfer opening (.ok echo)] none := by
        rw [Command.transfers, if_pos hnothing]
        exact .answered opening echo .done
      exact .ok (.single (.command hsent)) ⟨echo, by rw [if_pos hnothing]; rfl⟩
    · rw [if_neg hnothing] at hexchange
      have htransfers : Command.transfers command payload room length = [opening, data] := by
        rw [Command.transfers, if_neg hnothing]
      cases hdata : SpiBus.transfer data bus' with
      | error cause bus'' =>
        rw [onBus_of_error (hexchange.trans (Traced.transfer_of_error hdata _)),
          List.append_assoc, htransfers]
        exact .error (.single (.command (.answered opening echo (.failed data [] cause))))
      | ok bytes bus'' =>
        rw [onBus_of_ok (hexchange.trans (Traced.transfer_of_ok hdata _)), List.append_assoc,
          htransfers]
        exact .ok (.single (.command (.answered opening echo (.answered data bytes .done))))
          ⟨echo, by rw [if_neg hnothing]; rfl⟩

theorem carries_send (command payload : ByteArray) :
    Carries flagged state [.command (Command.transfers command (some payload) none payload.size)]
      (onBus (Command.send command payload) : Action (Traced β) Unit) state fun _ _ => True := by
  rw [Command.send, onBus_bind]
  exact (carries_exchange flagged state command (some payload) none payload.size).andThen
    (fun _ => .pure trivial) fun h => h

theorem carries_release :
    Carries flagged state [.release] (modifyBus SpiBus.release : Action (Traced β) Unit) state
      fun calls _ => calls = [.release] :=
  fun _ _ => .ok (.single .release) rfl

theorem carries_selectUpper (upper : Bool) :
    Carries flagged state [.selectUpper upper]
      (modifyBus (SpiBus.selectUpper upper) : Action (Traced β) Unit) state fun _ _ => True :=
  fun _ _ => .ok (.single (.selectUpper upper)) trivial

omit [SpiBus β] in
theorem carries_modifyState (change : DriverState → DriverState) :
    Carries flagged state [] (Driver.modifyState change : Action (Traced β) Unit) (change state)
      fun _ _ => True := by
  intro bus before
  have hend : Ended flagged [] before (change state) (fun _ _ => True)
      (.ok () ⟨⟨bus, before ++ []⟩, change state⟩) := .ok .done trivial
  rwa [List.append_nil] at hend

theorem carries_readRegister (op : Opcode) :
    Carries flagged state [.command op.registerRead] (readRegister op : Action (Traced β) UInt8)
      state fun calls value => ∃ echo bytes : ByteArray,
        BusCall.received calls = [echo, bytes] ∧ value = Bytes.byteAt bytes 0 :=
  (carries_exchange flagged state (Bytes.ofList [op.byte]) none (some 1) 1).bind
    (R := fun bytes calls value => calls = [] ∧ value = Bytes.byteAt bytes 0)
    (fun _ => .pure ⟨rfl, rfl⟩) fun ⟨echo, hfirst⟩ ⟨hmore, hvalue⟩ => by
      subst hmore
      exact ⟨echo, _, by rw [List.append_nil]; exact hfirst, hvalue⟩

variable {flagged state}

section Waiting

variable (hflagged : state.geometry.any (·.useFlagStatus) = flagged)
include hflagged

theorem carries_isReady :
    Carries flagged state (((Check.registers flagged).map Opcode.registerRead).map .command)
      (isReady : Action (Traced β) Bool) state fun calls verdict =>
        verdict = Check.passes calls := by
  cases flagged with
  | false =>
    refine (carries_readRegister false state .readStatus).bind
      (R := fun status calls verdict => calls = [] ∧
        verdict = (status &&& StatusBit.writeInProgress == 0))
      (fun {_ status} _ => .getState ?_) ?_
    · dsimp only
      rw [if_neg (by simp [hflagged])]
      exact .pure ⟨rfl, Bool.and_true _⟩
    · rintro first status _ verdict ⟨echo, bytes, hfirst, rfl⟩ ⟨rfl, rfl⟩
      rw [Check.passes, BusCall.received_append, hfirst]
      rfl
  | true =>
    refine (carries_readRegister true state .readStatus).bind
      (R := fun status calls verdict => ∃ echo bytes : ByteArray,
        BusCall.received calls = [echo, bytes] ∧
        verdict = (status &&& StatusBit.writeInProgress == 0 &&
          Bytes.byteAt bytes 0 &&& FlagStatusBit.controllerIdle != 0))
      (fun {_ status} _ => .getState ?_) ?_
    · dsimp only
      rw [if_pos hflagged]
      refine (carries_readRegister true state .readFlagStatus).bind
        (R := fun flags calls verdict => calls = [] ∧
          verdict = (status &&& StatusBit.writeInProgress == 0 &&
            flags &&& FlagStatusBit.controllerIdle != 0)) (fun flags => .pure ⟨rfl, rfl⟩) ?_
      rintro first flags _ verdict ⟨echo, bytes, hfirst, rfl⟩ ⟨rfl, rfl⟩
      exact ⟨echo, bytes, by rw [List.append_nil, hfirst], rfl⟩
    · rintro first status more verdict ⟨echo, bytes, hfirst, rfl⟩ ⟨echo', bytes', hmore, rfl⟩
      rw [Check.passes, BusCall.received_append, hfirst, hmore]
      rfl

theorem polled_pollFrom (attempts check : Nat) (bus : β) (before : List BusCall) :
    Polled flagged state attempts before (pollFrom attempts check ⟨⟨bus, before⟩, state⟩) := by
  induction attempts generalizing check bus before with
  | zero =>
    have hend : Polled flagged state 0 before (.ok .exhausted ⟨⟨bus, before ++ []⟩, state⟩) :=
      .exhausted (.spent .nil)
    rwa [List.append_nil] at hend
  | succ attempts ih =>
    have hcheck := carries_isReady hflagged bus before
    rw [pollFrom, Poll.untilReadyFrom_succ]
    generalize (isReady : Action (Traced β) Bool) ⟨⟨bus, before⟩, state⟩ = r at hcheck ⊢
    cases hcheck with
    | error performed => exact .error (.broken .nil (Nat.succ_pos attempts) performed.sent)
    | @ok check' verdict bus' performed gives =>
      cases verdict with
      | true =>
        exact .ready (check + 1) (.settled .nil (Nat.succ_pos attempts) performed.sent gives.symm)
      | false =>
        let next : Driver (Traced β) :=
          ⟨⟨SpiBus.delay 100 bus', before ++ check' ++ [.delay 100]⟩, state⟩
        have hrest : Polled flagged state attempts (before ++ check' ++ [.delay 100])
          (pollFrom attempts (check + 1) next) := ih ..
        change Polled flagged state (attempts + 1) before (pollFrom attempts (check + 1) next)
        generalize pollFrom attempts (check + 1) next = r at hrest ⊢
        cases hrest with
        | ready count waits =>
          rw [List.append_assoc, List.append_assoc]
          exact .ready count (waits.again performed.sent gives.symm)
        | exhausted waits =>
          rw [List.append_assoc, List.append_assoc]
          exact .exhausted (waits.again performed.sent gives.symm)
        | error waits =>
          rw [List.append_assoc, List.append_assoc]
          exact .error (waits.again performed.sent gives.symm)

theorem carries_waitReady (timeout : UInt32) :
    Carries flagged state [.wait timeout] (waitReady timeout : Action (Traced β) Unit) state
      fun _ _ => True := by
  intro bus before
  have hpolled := polled_pollFrom hflagged (Poll.attempts timeout) 0 bus before
  generalize hr : (pollFrom (Poll.attempts timeout) 0 : Action (Traced β) Poll.Outcome)
    ⟨⟨bus, before⟩, state⟩ = r at hpolled
  change Ended flagged _ before state _ ((pollFrom (Poll.attempts timeout) 0 >>= _) _)
  cases hpolled with
  | ready check waits =>
    rw [bind_of_ok hr]
    exact .ok (.single (.wait waits)) trivial
  | exhausted waits =>
    rw [bind_of_ok hr]
    exact .error (.single (.wait waits))
  | error waits =>
    rw [bind_of_error hr]
    exact .error (.single (.wait waits))

/-- A write command goes through its four phases, whose data phases it does not look at. -/
theorem carries_write (frame : Frame) (payload : Option ByteArray) :
    Carries flagged state (Phase.write state.settings frame payload)
      (write frame payload : Action (Traced β) Unit) state fun _ _ => True :=
  .getState ((carries_exchange flagged state _ none (some 0) 0).andThen
    (fun _ => (carries_send flagged state _ _).andThen
      (fun _ => (carries_waitReady hflagged _).andThen
        (fun _ => (carries_release flagged state).imp fun _ _ _ => trivial) fun h => h)
        fun h => h) fun h => h)

theorem carries_selectBank (g : Geometry) (address : Nat) :
    Carries flagged state (Phase.selectBank g state address)
      (selectBank g address : Action (Traced β) Unit) (.banked g state address)
      fun _ _ => True := by
  unfold Phase.selectBank selectBank
  refine .getState ?_
  dsimp only
  cases hbank : state.bank with
  | none =>
    rw [DriverState.banked_of_current (by simp [hbank])]
    exact .pure trivial
  | some bank =>
    dsimp only
    split
    case isTrue hcurrent =>
      rw [DriverState.banked_of_current (by simp [hbank, hcurrent])]
      exact .pure trivial
    case isFalse =>
      rw [← List.append_nil (Phase.write ..)]
      refine (carries_write hflagged _ _).andThen (fun _ => ?_) fun h => h
      have hbanked : DriverState.banked g state address =
          { state with bank := some { bank with current := .ofNat (g.bankOf address) } } := by
        rw [DriverState.banked, hbank]
        rfl
      rw [hbanked]
      exact carries_modifyState flagged state _

theorem carries_visit (g : Geometry) (position : Nat) :
    Carries flagged state (Phase.visit g state position)
      (visit g position : Action (Traced β) Nat) (.visited g state position)
      fun _ address => address = (g.locate position).address := by
  have hselect (upper : Bool) : Carries flagged { state with upper }
      (Phase.selectBank g state (g.locate position).address)
      (do selectBank g (g.locate position).address; return (g.locate position).address :
        Action (Traced β) Nat)
      (.banked g { state with upper } (g.locate position).address)
      fun _ address => address = (g.locate position).address := by
    let routed : DriverState := { state with upper }
    have hrouted : routed.geometry.any (·.useFlagStatus) = flagged := hflagged
    rw [← List.append_nil (Phase.selectBank ..)]
    exact (carries_selectBank hrouted g _).andThen (fun _ => .pure rfl) fun h => h
  unfold Phase.visit visit DriverState.visited
  dsimp only
  by_cases hstacked : g.wiring = .stacked
  · rw [if_pos hstacked, if_pos hstacked, if_pos hstacked]
    exact .modifyState ((carries_selectUpper flagged _ _).andThen (fun _ => hselect _) fun h => h)
  · rw [if_neg hstacked, if_neg hstacked, if_neg hstacked]
    exact hselect state.upper

end Waiting

theorem carries_receive (frame : Frame) (length : Nat) :
    Carries flagged state (Phase.receive frame length)
      (receive frame length : Action (Traced β) ByteArray) state fun calls value =>
        BusCall.lastReceived? calls = some value := by
  refine (carries_exchange flagged state frame.bytes none (some length) length).bind
    (R := fun bytes calls value => calls = [.release] ∧ value = bytes) (fun {_ bytes} _ => ?_) ?_
  · exact (carries_release flagged state).bind
      (R := fun _ calls value => calls = [] ∧ value = bytes)
      (fun _ => .pure ⟨rfl, rfl⟩) fun hfirst ⟨hmore, hvalue⟩ => by
        rw [hfirst, hmore]
        exact ⟨rfl, hvalue⟩
  · rintro first bytes _ _ ⟨echo, hfirst⟩ ⟨rfl, rfl⟩
    rw [BusCall.lastReceived?_release, BusCall.lastReceived?, hfirst, List.getLast?_concat]

end Operations

end Driver

end NorFlash
