import NorFlash.Driver.Array
import NorFlash.Driver.Scan

/-!
Programs over two kinds of state that go the same way: equal values, equal failures and states
that stay related. The driver reaches its bus through `SpiBus` alone, so a relation between two
buses that the operations of a bus keep is kept by every operation of the driver.
-/
namespace NorFlash

theorem Poll.untilReadyFrom_succ {σ : Type} (interval : UInt32) (ready : EStateM Error σ Bool)
    (wait : UInt32 → σ → σ) (attempts check : Nat) (s : σ) :
    untilReadyFrom interval ready wait (attempts + 1) check s =
      match ready s with
      | .error cause s => .error cause s
      | .ok true s => .ok (.ready (check + 1)) s
      | .ok false s =>
        untilReadyFrom interval ready wait attempts (check + 1) (wait interval s) :=
  rfl

/-- A condition that holds at once is seen at the first check. -/
theorem Poll.untilReady_of_ready {σ : Type} {budget : Budget} {ready : EStateM Error σ Bool}
    {wait : UInt32 → σ → σ} {s s' : σ} (hb : 0 < budget.attempts) (h : ready s = .ok true s') :
    untilReady budget ready wait s = .ok (.ready 1) s' := by
  obtain ⟨_ | attempts, interval⟩ := budget
  · simp at hb
  · rw [untilReady, untilReadyFrom_succ, h]

section Programs

variable {σ τ α κ : Type} {R : σ → τ → Prop}

/-- Results with the same value or the same cause of failure, in related states. -/
inductive Agree (R : σ → τ → Prop) :
    EStateM.Result Error σ α → EStateM.Result Error τ α → Prop where
  | ok {value : α} {s : σ} {t : τ} (states : R s t) : Agree R (.ok value s) (.ok value t)
  | error {cause : Error} {s : σ} {t : τ} (states : R s t) :
    Agree R (.error cause s) (.error cause t)

/-- From related states both programs end in agreeing results. -/
def Simulates (R : σ → τ → Prop) (x : EStateM Error σ α) (y : EStateM Error τ α) : Prop :=
  ∀ ⦃s t⦄, R s t → Agree R (x s) (y t)

namespace Simulates

theorem pure (value : α) :
    Simulates R (Pure.pure value : EStateM Error σ α) (Pure.pure value) :=
  fun _ _ h => .ok h

theorem throw (cause : Error) :
    Simulates R (MonadExcept.throw cause : EStateM Error σ α) (MonadExcept.throw cause) :=
  fun _ _ h => .error h

theorem bind {x : EStateM Error σ α} {y : EStateM Error τ α} {f : α → EStateM Error σ κ}
    {g : α → EStateM Error τ κ} (hx : Simulates R x y)
    (hf : ∀ value, Simulates R (f value) (g value)) :
    Simulates R (x >>= f) (y >>= g) := by
  intro s t h
  have hr := hx h
  change Agree R (EStateM.bind x f s) (EStateM.bind y g t)
  unfold EStateM.bind
  generalize x s = r at hr
  generalize y t = r' at hr
  cases hr with
  | ok states => exact hf _ states
  | error states => exact .error states

/-- A wait by polling goes the same way as long as its checks and its delays do. -/
theorem untilReadyFrom {ready : EStateM Error σ Bool} {ready' : EStateM Error τ Bool}
    {wait : UInt32 → σ → σ} {wait' : UInt32 → τ → τ} (hready : Simulates R ready ready')
    (hwait : ∀ microseconds {s t}, R s t → R (wait microseconds s) (wait' microseconds t))
    (interval : UInt32) (attempts check : Nat) :
    Simulates R (Poll.untilReadyFrom interval ready wait attempts check)
      (Poll.untilReadyFrom interval ready' wait' attempts check) := by
  induction attempts generalizing check with
  | zero => exact pure _
  | succ attempts ih =>
    intro s t h
    have hr := hready h
    rw [Poll.untilReadyFrom_succ, Poll.untilReadyFrom_succ]
    generalize ready s = r at hr
    generalize ready' t = r' at hr
    cases hr with
    | error states => exact .error states
    | @ok value _ _ states =>
      cases value with
      | true => exact .ok states
      | false => exact ih (check + 1) (hwait interval states)

end Simulates

end Programs

/-- A relation between the states of two buses that their operations keep. -/
structure BusSimulation {β γ : Type} [SpiBus β] [SpiBus γ] (R : β → γ → Prop) : Prop where
  transfer (request : Transfer) : Simulates R (SpiBus.transfer request) (SpiBus.transfer request)
  maxWrite {b : β} {c : γ} : R b c → SpiBus.maxWrite b = SpiBus.maxWrite c
  release {b : β} {c : γ} : R b c → R (SpiBus.release b) (SpiBus.release c)
  selectUpper (upper : Bool) {b : β} {c : γ} :
    R b c → R (SpiBus.selectUpper upper b) (SpiBus.selectUpper upper c)
  delay (microseconds : UInt32) {b : β} {c : γ} :
    R b c → R (SpiBus.delay microseconds b) (SpiBus.delay microseconds c)

namespace Driver

variable {β γ α : Type} {R : β → γ → Prop}

/-- Drivers that know the same, over related buses. -/
structure Alike (R : β → γ → Prop) (d : Driver β) (e : Driver γ) : Prop where
  bus : R d.bus e.bus
  state : d.state = e.state

theorem simulates_onBus {x : EStateM Error β α} {y : EStateM Error γ α} (h : Simulates R x y) :
    Simulates (Alike R) (onBus x) (onBus y) := by
  rintro ⟨b, state⟩ ⟨c, _⟩ ⟨hbus, rfl⟩
  have hr := h hbus
  unfold onBus
  dsimp only
  generalize x b = r at hr
  generalize y c = r' at hr
  cases hr with
  | ok states => exact .ok ⟨states, rfl⟩
  | error states => exact .error ⟨states, rfl⟩

theorem simulates_attempt {x : Action β α} {y : Action γ α} (h : Simulates (Alike R) x y) :
    Simulates (Alike R) (attempt x) (attempt y) := by
  intro d e hd
  have hr := h hd
  unfold attempt
  dsimp only
  generalize x d = r at hr
  generalize y e = r' at hr
  cases hr with
  | ok states => exact .ok states
  | error states => exact .ok states

theorem simulates_getState : Simulates (Alike R) getState getState := by
  rintro ⟨b, state⟩ ⟨c, _⟩ ⟨hbus, rfl⟩
  exact .ok ⟨hbus, rfl⟩

theorem simulates_modifyState (change : DriverState → DriverState) :
    Simulates (Alike R) (modifyState change) (modifyState change) := by
  rintro ⟨b, state⟩ ⟨c, _⟩ ⟨hbus, rfl⟩
  exact .ok ⟨hbus, rfl⟩

theorem Alike.mapBus {f : β → β} {g : γ → γ} (h : ∀ {b c}, R b c → R (f b) (g c))
    {d : Driver β} {e : Driver γ} (hd : Alike R d e) : Alike R (d.mapBus f) (e.mapBus g) :=
  ⟨h hd.bus, hd.state⟩

theorem simulates_modifyBus {f : β → β} {g : γ → γ} (h : ∀ {b c}, R b c → R (f b) (g c)) :
    Simulates (Alike R) (modifyBus f) (modifyBus g) :=
  fun _ _ hd => .ok (hd.mapBus h)

theorem simulates_requireReady :
    Simulates (Alike R) (requireReady : Action β Geometry) requireReady := by
  refine simulates_getState.bind fun state => ?_
  split
  · exact .pure _
  · exact .throw _

theorem simulates_requireInside (geometry : Geometry) (offset length : Nat) :
    Simulates (Alike R) (requireInside geometry offset length)
      (requireInside geometry offset length) := by
  unfold requireInside
  split
  · exact .pure _
  · exact .throw _

theorem simulates_requireUnlocked (offset length : Nat) :
    Simulates (Alike R) (requireUnlocked offset length : Action β Unit)
      (requireUnlocked offset length) := by
  refine simulates_getState.bind fun state => ?_
  split
  · exact .throw _
  · exact .pure _

section Operations

variable [SpiBus β] [SpiBus γ] (h : BusSimulation R)
include h

theorem simulates_exchange (command : ByteArray) (payload : Option ByteArray) (room : Option Nat)
    (length : Nat) :
    Simulates R (Command.exchange command payload room length)
      (Command.exchange command payload room length) := by
  refine (h.transfer _).bind fun received => ?_
  split
  · exact .pure _
  · exact h.transfer _

theorem simulates_commandReceive (command : ByteArray) (length : Nat) :
    Simulates (Alike R) (onBus (Command.receive command length))
      (onBus (Command.receive command length)) :=
  simulates_onBus (simulates_exchange h ..)

theorem simulates_commandSend (command payload : ByteArray) :
    Simulates (Alike R) (onBus (Command.send command payload))
      (onBus (Command.send command payload)) :=
  simulates_onBus ((simulates_exchange h ..).bind fun _ => .pure _)

theorem simulates_release :
    Simulates (Alike R) (modifyBus SpiBus.release) (modifyBus SpiBus.release) :=
  simulates_modifyBus h.release

theorem simulates_readRegister (op : Opcode) :
    Simulates (Alike R) (readRegister op) (readRegister op) :=
  (simulates_commandReceive h ..).bind fun _ => .pure _

theorem simulates_isReady : Simulates (Alike R) isReady isReady := by
  refine (simulates_readRegister h _).bind fun status => simulates_getState.bind fun state => ?_
  dsimp only
  split
  · exact (simulates_readRegister h _).bind fun flags => (Simulates.pure _).bind fun _ => .pure _
  · exact (Simulates.pure _).bind fun _ => .pure _

theorem simulates_waitReady (timeout : UInt32) :
    Simulates (Alike R) (waitReady timeout) (waitReady timeout) := by
  have hwait (microseconds : UInt32) {d : Driver β} {e : Driver γ} (hd : Alike R d e) :
      Alike R (d.mapBus (SpiBus.delay microseconds)) (e.mapBus (SpiBus.delay microseconds)) :=
    hd.mapBus (h.delay microseconds)
  refine (Simulates.untilReadyFrom (simulates_isReady h) hwait ..).bind fun outcome => ?_
  cases outcome with
  | ready => exact .pure _
  | exhausted => exact .throw _

theorem simulates_write (frame : Frame) (payload : Option ByteArray) :
    Simulates (Alike R) (write frame payload) (write frame payload) :=
  simulates_getState.bind fun _ => (simulates_commandReceive h ..).bind fun _ =>
    (simulates_commandSend h ..).bind fun _ => (simulates_waitReady h _).bind fun _ =>
      simulates_release h

theorem simulates_receive (frame : Frame) (length : Nat) :
    Simulates (Alike R) (receive frame length) (receive frame length) :=
  (simulates_commandReceive h ..).bind fun _ => (simulates_release h).bind fun _ => .pure _

theorem simulates_selectBank (geometry : Geometry) (address : Nat) :
    Simulates (Alike R) (selectBank geometry address) (selectBank geometry address) := by
  refine simulates_getState.bind fun state => ?_
  split
  · exact .pure _
  · split
    · exact .pure _
    · exact (simulates_write h ..).bind fun _ => simulates_modifyState _

theorem simulates_visit (geometry : Geometry) (position : Nat) :
    Simulates (Alike R) (visit geometry position) (visit geometry position) := by
  have harrive := (simulates_selectBank h geometry (geometry.locate position).address).bind
    fun _ => .pure (geometry.locate position).address
  unfold visit
  dsimp only
  split
  · exact (simulates_modifyState _).bind fun _ =>
      (simulates_modifyBus (h.selectUpper _)).bind fun _ => harrive
  · exact harrive

theorem simulates_erasePieces (geometry : Geometry) (pieces : List Piece) :
    Simulates (Alike R) (erasePieces geometry pieces) (erasePieces geometry pieces) := by
  induction pieces with
  | nil => exact .pure _
  | cons piece pieces ih =>
    exact ((simulates_visit h ..).bind fun _ => simulates_write h ..).bind fun _ => ih

theorem simulates_programPiece (geometry : Geometry) (offset : Nat) (data : ByteArray)
    (piece : Piece) :
    Simulates (Alike R) (programPiece geometry offset data piece)
      (programPiece geometry offset data piece) :=
  (simulates_visit h ..).bind fun _ => simulates_write h ..

theorem simulates_programPieces (geometry : Geometry) (offset : Nat) (data : ByteArray)
    (pieces : List Piece) :
    Simulates (Alike R) (programPieces geometry offset data pieces)
      (programPieces geometry offset data pieces) := by
  induction pieces with
  | nil => exact .pure _
  | cons piece pieces ih => exact (simulates_programPiece h ..).bind fun _ => ih

theorem simulates_programNothing (geometry : Geometry) (offset attempts : Nat) :
    Simulates (Alike R) (programNothing geometry offset attempts)
      (programNothing geometry offset attempts) := by
  induction attempts with
  | zero => exact .throw _
  | succ attempts ih => exact (simulates_programPiece h ..).bind fun _ => ih

theorem simulates_readPiece (geometry : Geometry) (piece : Piece) :
    Simulates (Alike R) (readPiece geometry piece) (readPiece geometry piece) :=
  (simulates_visit h ..).bind fun _ => (simulates_receive h ..).bind fun _ => .pure _

theorem simulates_readPieces (geometry : Geometry) (pieces : List Piece) (done : ByteArray) :
    Simulates (Alike R) (readPieces geometry pieces done) (readPieces geometry pieces done) := by
  induction pieces generalizing done with
  | nil => exact .pure _
  | cons piece pieces ih =>
    refine (simulates_attempt (simulates_readPiece h geometry piece)).bind fun outcome => ?_
    cases outcome with
    | ok bytes => exact ih _
    | error cause =>
      dsimp only
      split
      · exact .throw _
      · exact .pure _

theorem simulates_erase (offset length : Nat) :
    Simulates (Alike R) (erase offset length) (erase offset length) := by
  refine simulates_requireReady.bind fun geometry => ?_
  dsimp only
  split
  · exact (Simulates.throw _).bind fun _ => (simulates_requireInside ..).bind fun _ =>
      (simulates_requireUnlocked ..).bind fun _ => simulates_erasePieces h ..
  · exact (simulates_requireInside ..).bind fun _ => (simulates_requireUnlocked ..).bind fun _ =>
      simulates_erasePieces h ..

theorem simulates_program (offset : Nat) (data : ByteArray) :
    Simulates (Alike R) (program offset data) (program offset data) := by
  refine simulates_requireReady.bind fun geometry => (simulates_requireInside ..).bind fun _ =>
    (simulates_requireUnlocked ..).bind fun _ => Simulates.bind ?_ fun maxWrite => ?_
  · intro d e hd
    dsimp only
    rw [h.maxWrite hd.bus]
    exact .ok hd
  · split
    · exact simulates_programNothing h ..
    · exact simulates_programPieces h ..

theorem simulates_read (offset length : Nat) :
    Simulates (Alike R) (read offset length) (read offset length) :=
  simulates_requireReady.bind fun _ => (simulates_requireInside ..).bind fun _ =>
    simulates_readPieces h ..

theorem simulates_readId : Simulates (Alike R) readId readId := by
  refine (simulates_attempt (simulates_commandReceive h ..)).bind fun outcome => ?_
  cases outcome with
  | ok answer => exact .pure _
  | error cause => exact .pure _

theorem simulates_identify (attempts : Nat) :
    Simulates (Alike R) (identify attempts) (identify attempts) := by
  induction attempts with
  | zero => exact .throw _
  | succ attempts ih =>
    refine (simulates_readId h).bind fun found => ?_
    cases found with
    | none => exact ih
    | some part => exact .pure _

theorem simulates_writeConfig (config : UInt8) :
    Simulates (Alike R) (writeConfig config) (writeConfig config) :=
  (simulates_readRegister h _).bind fun _ => simulates_write h ..

omit [SpiBus β] [SpiBus γ] h in
theorem simulates_enableQuadBit {read : Action β UInt8} {read' : Action γ UInt8}
    {write : UInt8 → Action β Unit} {write' : UInt8 → Action γ Unit}
    (hread : Simulates (Alike R) read read')
    (hwrite : ∀ value, Simulates (Alike R) (write value) (write' value)) (bit : UInt8) :
    Simulates (Alike R) (enableQuadBit read write bit) (enableQuadBit read' write' bit) := by
  refine hread.bind fun value => ?_
  split
  · exact .pure _
  · refine (hwrite _).bind fun _ => (simulates_attempt hread).bind fun outcome => ?_
    cases outcome with
    | error cause => exact .throw _
    | ok value =>
      dsimp only
      split
      · exact .pure _
      · exact .throw _

theorem simulates_enableQuad (part : Part) :
    Simulates (Alike R) (enableQuad part) (enableQuad part) := by
  unfold enableQuad
  split
  · exact simulates_enableQuadBit (simulates_readRegister h _) (fun _ => simulates_write h ..) _
  · split
    · exact simulates_enableQuadBit (simulates_readRegister h _) (simulates_writeConfig h) _
    · split
      · exact .pure _
      · exact .throw _

theorem simulates_setUpAddressing (part : Part) (geometry : Geometry) :
    Simulates (Alike R) (setUpAddressing part geometry) (setUpAddressing part geometry) := by
  unfold setUpAddressing
  split
  · exact .pure _
  · refine simulates_getState.bind fun state => ?_
    split
    · exact .pure _
    · exact (simulates_commandSend h ..).bind fun _ => simulates_release h
    · exact (simulates_receive h ..).bind fun _ => simulates_modifyState _

theorem simulates_bringUp : Simulates (Alike R) bringUp bringUp := by
  refine (simulates_identify h _).bind fun part => ?_
  have hlast (geometry : Geometry) :
      Simulates (Alike R)
        (setUpAddressing part geometry >>= fun _ => (pure geometry : Action β Geometry))
        (setUpAddressing part geometry >>= fun _ => (pure geometry : Action γ Geometry)) :=
    (simulates_setUpAddressing h part geometry).bind fun _ => .pure _
  dsimp only
  split
  · refine (simulates_attempt (simulates_write h ..)).bind fun _ =>
      simulates_getState.bind fun state => (simulates_modifyState _).bind fun _ => ?_
    split
    · exact (simulates_enableQuad h part).bind fun _ => hlast _
    · exact hlast _
  · refine simulates_getState.bind fun state => (simulates_modifyState _).bind fun _ => ?_
    split
    · exact (simulates_enableQuad h part).bind fun _ => hlast _
    · exact hlast _

theorem simulates_scan : Simulates (Alike R) scan scan := by
  refine (simulates_modifyState _).bind fun _ =>
    (simulates_attempt (simulates_bringUp h)).bind fun outcome => ?_
  cases outcome with
  | ok geometry => exact (simulates_modifyState _).bind fun _ => .pure _
  | error cause => exact (simulates_modifyState _).bind fun _ => .throw _

end Operations

end Driver

end NorFlash
