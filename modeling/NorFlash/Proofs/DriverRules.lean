import NorFlash.Driver.Array
import NorFlash.Proofs.BringUp

/-!
Invariants of the driver, whatever its bus answers: what the accesses to the part keep, each of
them an exchange of commands, is kept by the requests and by the scan that are made of them.
-/
namespace NorFlash.Driver

variable {β : Type} {I : Driver β → Prop}

theorem Keeps.getState : Keeps I (getState : Action β DriverState) :=
  fun d hd => .inl ⟨d.state, d, rfl, hd⟩

theorem Keeps.modifyState {change : DriverState → DriverState}
    (h : ∀ d : Driver β, I d → I ⟨d.bus, change d.state⟩) :
    Keeps I (modifyState change : Action β Unit) :=
  fun d hd => .inl ⟨(), ⟨d.bus, change d.state⟩, rfl, h d hd⟩

section Requests

theorem Keeps.requireReady : Keeps I (Driver.requireReady : Action β Geometry) := by
  refine Keeps.getState.bind fun state => ?_
  split
  · exact .pure _
  · exact .throw _

theorem Keeps.requireInside (g : Geometry) (offset length : Nat) :
    Keeps I (Driver.requireInside g offset length : Action β Unit) := by
  unfold Driver.requireInside
  split
  · exact .pure _
  · exact .throw _

theorem Keeps.requireUnlocked (offset length : Nat) :
    Keeps I (Driver.requireUnlocked offset length : Action β Unit) := by
  refine Keeps.getState.bind fun state => ?_
  split
  · exact .throw _
  · exact .pure _

variable [SpiBus β]

theorem Keeps.visit (hselectUpper : ∀ upper, Keeps I (modifyBus (SpiBus.selectUpper upper)))
    (hrouted : ∀ (d : Driver β) upper, I d → I ⟨d.bus, { d.state with upper }⟩)
    (hselectBank : ∀ g address, Keeps I (selectBank g address)) (g : Geometry) (position : Nat) :
    Keeps I (Driver.visit g position) := by
  have harrive := (hselectBank g (g.locate position).address).bind
    fun _ => Keeps.pure (g.locate position).address
  unfold Driver.visit
  dsimp only
  split
  · exact (Keeps.modifyState fun d hd => hrouted d _ hd).bind fun _ =>
      (hselectUpper _).bind fun _ => harrive
  · exact harrive

section Writes

variable (hvisit : ∀ g position, Keeps I (Driver.visit g position : Action β Nat))
  (hwrite : ∀ frame payload, Keeps I (write frame payload : Action β Unit))
include hvisit hwrite

theorem Keeps.erase (offset length : Nat) :
    Keeps I (Driver.erase offset length : Action β Unit) := by
  have hpieces (g : Geometry) (pieces : List Piece) : Keeps I (erasePieces g pieces) := by
    induction pieces with
    | nil => exact .pure _
    | cons piece pieces ih =>
      exact ((hvisit _ _).bind fun _ => hwrite _ _).bind fun _ => ih
  refine Keeps.requireReady.bind fun g => ?_
  dsimp only
  split
  · exact (Keeps.throw _).bind fun _ => (Keeps.requireInside _ _ _).bind fun _ =>
      (Keeps.requireUnlocked _ _).bind fun _ => hpieces g _
  · exact (Keeps.requireInside _ _ _).bind fun _ => (Keeps.requireUnlocked _ _).bind fun _ =>
      hpieces g _

theorem Keeps.program (offset : Nat) (data : ByteArray) :
    Keeps I (Driver.program offset data : Action β Unit) := by
  have hpiece (g : Geometry) (piece : Piece) : Keeps I (programPiece g offset data piece) :=
    (hvisit _ _).bind fun _ => hwrite _ _
  have hpieces (g : Geometry) (pieces : List Piece) :
      Keeps I (programPieces g offset data pieces) := by
    induction pieces with
    | nil => exact .pure _
    | cons piece pieces ih => exact (hpiece g piece).bind fun _ => ih
  have hnothing (g : Geometry) (attempts : Nat) : Keeps I (programNothing g offset attempts) := by
    induction attempts with
    | zero => exact .throw _
    | succ attempts ih => exact ((hvisit _ _).bind fun _ => hwrite _ _).bind fun _ => ih
  refine Keeps.requireReady.bind fun g => (Keeps.requireInside _ _ _).bind fun _ =>
    (Keeps.requireUnlocked _ _).bind fun _ => Keeps.bind ?_ fun limit => ?_
  · exact fun d hd => .inl ⟨SpiBus.maxWrite d.bus, d, rfl, hd⟩
  · split
    · exact hnothing g _
    · exact hpieces g _

end Writes

theorem Keeps.read (hvisit : ∀ g position, Keeps I (Driver.visit g position : Action β Nat))
    (hreceive : ∀ (mode : ReadMode) width address length,
      Keeps I (receive ((Frame.withAddress mode.opcode.byte width address).withDummy
        mode.dummyBytes) length : Action β ByteArray)) (offset length : Nat) :
    Keeps I (Driver.read offset length : Action β ByteArray) := by
  have hpieces (g : Geometry) (pieces : List Piece) (done : ByteArray) :
      Keeps I (readPieces g pieces done) := by
    induction pieces generalizing done with
    | nil => exact .pure _
    | cons piece pieces ih =>
      have hpiece : Keeps I (readPiece g piece : Action β ByteArray) :=
        (hvisit _ _).bind fun _ => (hreceive _ _ _ _).bind fun _ => .pure _
      refine hpiece.attempt.bind fun outcome => ?_
      cases outcome with
      | ok bytes => exact ih _
      | error cause =>
        dsimp only
        split
        · exact .throw _
        · exact .pure _
  exact Keeps.requireReady.bind fun g => (Keeps.requireInside _ _ _).bind fun _ => hpieces g _ _

end Requests

section Scan

variable [SpiBus β]

section Identify

variable
  (hid : Keeps I (onBus (Command.receive (Bytes.ofList [Opcode.readId.byte]) Part.maxIdLength)))
include hid

theorem Keeps.readId : Keeps I (Driver.readId : Action β (Option Part)) := by
  refine hid.attempt.bind fun outcome => ?_
  cases outcome with
  | ok answer => exact .pure _
  | error cause => exact .pure _

theorem Keeps.identify (attempts : Nat) : Keeps I (Driver.identify attempts : Action β Part) := by
  induction attempts with
  | zero => exact .throw _
  | succ attempts ih =>
    refine (Keeps.readId hid).bind fun found => ?_
    cases found with
    | none => exact ih
    | some part => exact .pure _

end Identify

theorem Keeps.setUpAddressing
    (hwiden : Keeps I (onBus (Command.send (Bytes.ofList [Opcode.enterFourByte.byte]) .empty)))
    (hrelease : Keeps I (modifyBus SpiBus.release))
    (hbank : ∀ part, Keeps I (receive (.ofOpcode (bankCommands part).1.byte) 1 :
      Action β ByteArray))
    (hrecorded : ∀ (d : Driver β) bank, I d → I ⟨d.bus, { d.state with bank := some bank }⟩)
    (part : Part) (g : Geometry) : Keeps I (Driver.setUpAddressing part g : Action β Unit) := by
  unfold Driver.setUpAddressing
  split
  · exact .pure _
  · refine Keeps.getState.bind fun state => ?_
    split
    · exact .pure _
    · exact hwiden.bind fun _ => hrelease
    · exact (hbank part).bind fun _ => Keeps.modifyState fun d hd => hrecorded d _ hd

theorem Keeps.equip {part : Part}
    (hlaid : ∀ d : Driver β, I d →
      I ⟨d.bus, { d.state with geometry := some (.derive part d.state.settings) }⟩)
    (hquad : Keeps I (Driver.enableQuad part : Action β Unit))
    (haddressing : ∀ g, Keeps I (Driver.setUpAddressing part g : Action β Unit)) :
    Keeps I (Driver.equip part) := by
  intro d hd
  have hlast := (haddressing (.derive part d.state.settings)).bind
    fun _ => Keeps.pure (Geometry.derive part d.state.settings)
  rw [equip_eq]
  split
  · exact (hquad.bind fun _ => hlast) _ (hlaid d hd)
  · exact hlast _ (hlaid d hd)

/-- The part of a scan that follows the identification. -/
def prepare (part : Part) : Action β Geometry :=
  if powersUpProtected part then attempt (writeStatus 0) >>= fun _ => equip part else equip part

theorem Keeps.prepare {part : Part} (hclear : Keeps I (writeStatus 0 : Action β Unit))
    (hequip : Keeps I (Driver.equip part : Action β Geometry)) : Keeps I (Driver.prepare part) := by
  unfold Driver.prepare
  split
  · exact hclear.attempt.bind fun _ => hequip
  · exact hequip

theorem bringUp_eq_prepare : (bringUp : Action β Geometry) = identify scanAttempts >>= prepare :=
  bringUp_eq

/-- A scan identifies the part and prepares it, and notes how far it has come. -/
theorem Keeps.scan
    (hcleared : ∀ (d : Driver β) lifecycle, I d →
      I ⟨d.bus, { d.state with lifecycle, geometry := none, bank := none }⟩)
    (hready : ∀ d : Driver β, I d → I ⟨d.bus, { d.state with lifecycle := .ready }⟩)
    (hidentify : Keeps I (Driver.identify scanAttempts : Action β Part))
    (hprepare : ∀ part, Keeps I (Driver.prepare part : Action β Geometry)) :
    Keeps I (Driver.scan : Action β Geometry) := by
  have hbringUp : Keeps I (bringUp : Action β Geometry) := by
    rw [bringUp_eq_prepare]
    exact hidentify.bind hprepare
  refine (Keeps.modifyState fun d hd => hcleared d _ hd).bind fun _ =>
    hbringUp.attempt.bind fun outcome => ?_
  cases outcome with
  | ok geometry => exact (Keeps.modifyState hready).bind fun _ => .pure _
  | error cause => exact (Keeps.modifyState fun d hd => hcleared d _ hd).bind fun _ => .throw _

end Scan

end NorFlash.Driver
