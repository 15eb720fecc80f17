import NorFlash.Proofs.Identification

/-!
A scan of an emulated part: it identifies the part, and unless a quad mode is asked for and cannot
be enabled, it succeeds and leaves the driver attuned to the part with the array as it was.
-/
namespace NorFlash.Driver

open Emulation (Chip)

section Programs

variable {σ α κ : Type} {I : σ → Prop}

/-- The invariant is kept whether or not the program succeeds. -/
def Keeps (I : σ → Prop) (x : EStateM Error σ α) : Prop :=
  ∀ s, I s → (∃ value s', x s = .ok value s' ∧ I s') ∨ ∃ cause s', x s = .error cause s' ∧ I s'

theorem Keeps.pure (value : α) : Keeps I (Pure.pure value : EStateM Error σ α) :=
  fun s hs => .inl ⟨value, s, rfl, hs⟩

theorem Keeps.throw (cause : Error) : Keeps I (MonadExcept.throw cause : EStateM Error σ α) :=
  fun s hs => .inr ⟨cause, s, rfl, hs⟩

theorem Keeps.bind {x : EStateM Error σ α} {f : α → EStateM Error σ κ} (hx : Keeps I x)
    (hf : ∀ value, Keeps I (f value)) : Keeps I (x >>= f) := by
  intro s hs
  rcases hx s hs with ⟨value, s', h, hs'⟩ | ⟨cause, s', h, hs'⟩
  · rw [bind_of_ok h]
    exact hf value s' hs'
  · rw [bind_of_error h]
    exact .inr ⟨cause, s', rfl, hs'⟩

theorem Keeps.of_ok {x : EStateM Error σ α} (hx : Keeps I x) {s s' : σ} {value : α} (hs : I s)
    (h : x s = .ok value s') : I s' := by
  rcases hx s hs with ⟨value', s₁, hok, hs₁⟩ | ⟨cause, s₁, herror, -⟩
  · rw [hok] at h
    cases h
    exact hs₁
  · rw [herror] at h
    cases h

theorem Keeps.attempt_ok {β : Type} {I : Driver β → Prop} {x : Action β α} (hx : Keeps I x)
    {d : Driver β} (hd : I d) : ∃ outcome d', Driver.attempt x d = .ok outcome d' ∧ I d' := by
  rcases hx d hd with ⟨value, d', h, hd'⟩ | ⟨cause, d', h, hd'⟩
  · exact ⟨.ok value, d', attempt_of_ok h, hd'⟩
  · exact ⟨.error cause, d', attempt_of_error h, hd'⟩

theorem Keeps.attempt {β : Type} {I : Driver β → Prop} {x : Action β α} (hx : Keeps I x) :
    Keeps I (Driver.attempt x) :=
  fun _ hd => .inl (hx.attempt_ok hd)

theorem Keeps.finish {β : Type} {I : Driver β → Prop} {x : Action β Unit}
    (h : ∀ d, I d → ∃ d' succeeds, ∃ _ : Decidable succeeds,
      x d = Driver.finish succeeds d' ∧ I d') :
    Keeps I x := by
  intro d hd
  obtain ⟨d', succeeds, _, hx, hd'⟩ := h d hd
  by_cases hs : succeeds
  · exact .inl ⟨(), d', hx.trans (finish_of hs d'), hd'⟩
  · exact .inr ⟨_, d', hx.trans (finish_of_not hs d'), hd'⟩

section Quad

variable {β : Type} {I : Driver β → Prop}

theorem Keeps.enableQuadBit {read : Action β UInt8} {write : UInt8 → Action β Unit}
    (hread : Keeps I read) (hwrite : ∀ value, Keeps I (write value)) (bit : UInt8) :
    Keeps I (enableQuadBit read write bit) := by
  refine hread.bind fun value => ?_
  split
  · exact .pure _
  · refine (hwrite _).bind fun _ => hread.attempt.bind fun answer => ?_
    cases answer with
    | ok value =>
      dsimp only
      split
      · exact .pure _
      · exact .throw _
    | error cause => exact .throw _

/-- Enabling quad mode is made of accesses to the status and configuration registers. -/
theorem Keeps.enableQuad [SpiBus β] (hstatus : Keeps I readStatus) (hconfig : Keeps I readConfig)
    (hwriteStatus : ∀ value, Keeps I (writeStatus value))
    (hwriteConfig : ∀ value, Keeps I (writeConfig value)) (part : Part) :
    Keeps I (enableQuad part) := by
  unfold Driver.enableQuad
  split
  · exact .enableQuadBit hstatus hwriteStatus _
  · split
    · exact .enableQuadBit hconfig hwriteConfig _
    · split
      · exact .pure _
      · exact .throw _

end Quad

end Programs

/-- Nothing but the status and configuration registers of the part has changed. -/
structure Untouched (settings : FlashSettings) (chip : Chip) (state : DriverState)
    (d : Driver Chip) : Prop where
  rest : d.bus.AtRest
  part : d.bus.part = chip.part
  memory : d.bus.memory = chip.memory
  pageSize : d.bus.pageSize = chip.pageSize
  bank : d.bus.bank = chip.bank
  fourByte : d.bus.fourByte = chip.fourByte
  polls : d.bus.busyPolls = chip.busyPolls
  busy_le : d.bus.busy ≤ settings.leftover chip.busyPolls
  known : d.state = state
  chosen : state.settings = settings

section StatusRegisters

variable {settings : FlashSettings} {chip : Chip} {state : DriverState}

theorem keeps_readStatus : Keeps (Untouched settings chip state) readStatus := by
  rintro ⟨held, _⟩ h
  refine .inl ⟨_, _, readStatus_eq h.rest.quiet _, ?_⟩
  exact ⟨h.rest.polled 1, h.part, h.memory, h.pageSize, h.bank, h.fourByte, h.polls,
    Nat.le_trans (Nat.sub_le ..) h.busy_le, h.known, h.chosen⟩

theorem keeps_readConfig : Keeps (Untouched settings chip state) readConfig := by
  rintro ⟨held, _⟩ h
  exact .inl ⟨_, _, readConfig_eq h.rest.quiet _, h⟩

theorem keeps_statusWrite (status : UInt8) (more : List UInt8) :
    Keeps (Untouched settings chip state) (write (.ofOpcode Opcode.writeStatus.byte)
      (some (Bytes.ofList (status :: more)))) := by
  refine .finish ?_
  rintro ⟨held, known⟩ h
  refine ⟨_, _, inferInstance, write_status h.rest.quiet known status more, ?_⟩
  have hbusy : held.busyPolls - Poll.attempts known.settings.programTimeout ≤
      settings.leftover chip.busyPolls := by
    have hknown : known = state := h.known
    rw [hknown, h.chosen, h.polls, FlashSettings.leftover]
    omega
  exact ⟨(h.rest.quiet.restatused status more).polled _, h.part, h.memory, h.pageSize, h.bank,
    h.fourByte, h.polls, hbusy, h.known, h.chosen⟩

theorem keeps_writeStatus (status : UInt8) :
    Keeps (Untouched settings chip state) (writeStatus status) :=
  keeps_statusWrite status []

theorem keeps_writeConfig (config : UInt8) :
    Keeps (Untouched settings chip state) (writeConfig config) :=
  keeps_readStatus.bind fun status => keeps_statusWrite status [config]

theorem keeps_enableQuad (part : Part) :
    Keeps (Untouched settings chip state) (enableQuad part) :=
  .enableQuad keeps_readStatus keeps_readConfig keeps_writeStatus keeps_writeConfig part

end StatusRegisters

section Identify

variable {chip : Chip} (h : chip.Quiet) {entry : Part} (ht : chip.part.TakenFor entry)
  (state : DriverState)
include h ht

theorem readId_eq : readId ⟨chip, state⟩ = .ok (some entry) ⟨chip, state⟩ := by
  have hanswer : (List.range Part.maxIdLength).map (fun n => chip.part.idBytes.getD n 0) =
      chip.part.idBytes := by
    apply List.ext_getElem (by simp [ht.idBytes_length])
    intro i hi hi'
    simp [hi']
  have hreceive := @Command.receive_eq chip (Bytes.ofList [Opcode.readId.byte]) (by simp)
    Part.maxIdLength
  rw [Bytes.toList_ofList, Chip.transact_readId h, List.length_replicate, hanswer] at hreceive
  have hwhole : Bytes.resize (Bytes.ofList chip.part.idBytes) Part.maxIdLength =
      Bytes.ofList chip.part.idBytes := by
    have hresize := Bytes.resize_self (Bytes.ofList chip.part.idBytes)
    rwa [Bytes.size_ofList, ht.idBytes_length] at hresize
  refine (bind_of_ok (attempt_of_ok (onBus_of_ok hreceive state)) _).trans ?_
  dsimp only
  rw [hwhole, Bytes.toList_ofList, ht.identified]
  rfl

theorem identify_eq (attempts : Nat) :
    identify (attempts + 1) ⟨chip, state⟩ = .ok entry ⟨chip, state⟩ :=
  bind_of_ok (readId_eq h ht state) _

end Identify

/-- What a scan does once the part is identified and its write protection cleared. -/
def equip {β : Type} [SpiBus β] (part : Part) : Action β Geometry := do
  let settings := (← getState).settings
  let geometry := Geometry.derive part settings
  modifyState fun state => { state with geometry := some geometry }
  if settings.readMode.isQuad || settings.programMode.isQuad then
    enableQuad part
  setUpAddressing part geometry
  return geometry

/-- Quad modes need a bit of the part, which can fail to be set. -/
def wantsQuad (settings : FlashSettings) : Bool :=
  settings.readMode.isQuad || settings.programMode.isQuad

/-- The layout is recorded first, and the part set up for it afterwards. -/
theorem equip_eq {β : Type} [SpiBus β] (part : Part) (d : Driver β) :
    equip part d =
      (if wantsQuad d.state.settings then
        enableQuad part >>= fun _ =>
          setUpAddressing part (.derive part d.state.settings) >>= fun _ =>
            pure (.derive part d.state.settings)
      else setUpAddressing part (.derive part d.state.settings) >>= fun _ =>
        pure (.derive part d.state.settings) : Action β Geometry)
        ⟨d.bus, { d.state with geometry := some (.derive part d.state.settings) }⟩ :=
  (bind_of_ok (getState_eq d) _).trans (bind_of_ok rfl _)

theorem bringUp_eq {β : Type} [SpiBus β] :
    (bringUp : Action β Geometry) = identify scanAttempts >>= fun part =>
      if powersUpProtected part then attempt (writeStatus 0) >>= fun _ => equip part
      else equip part :=
  rfl

/-- The opcodes that read and write the bank register answer with it and change it. -/
theorem bankCommands_writes (part : Part) :
    (bankCommands part).2 = .writeBank ∨ (bankCommands part).2 = .writeExtendedAddress := by
  unfold bankCommands
  split
  · exact .inl rfl
  · exact .inr rfl

theorem receive_bank {chip : Chip} (h : chip.Quiet) (state : DriverState) (part : Part) :
    receive (.ofOpcode (bankCommands part).1.byte) 1 ⟨chip, state⟩ =
      .ok (Bytes.ofList [chip.bank]) ⟨chip, state⟩ := by
  have hreceive := receive_idle chip (bankCommands part).1
  have hanswer : chip.transact [(bankCommands part).1.byte] [Controller.Engine.idleByte] =
      ([chip.bank], chip) := by
    unfold bankCommands
    split
    · exact Chip.transact_register h (by decide) (fun _ => rfl) _
    · exact Chip.transact_register h (by decide) (fun _ => rfl) _
  rw [hanswer] at hreceive
  exact bind_of_ok (onBus_of_ok hreceive state) _

section Equip

variable {settings : FlashSettings} {chip : Chip} {state : DriverState} {d : Driver Chip}
  {g : Geometry}

/-- The part and the layout found for it fit, and the settings let all of it be reached. -/
structure Suits (settings : FlashSettings) (chip : Chip) (g : Geometry) : Prop where
  memory : chip.memory.size = g.size
  page : chip.pageSize = g.pageSize
  span : chip.eraseSpan g.eraseCommand = g.eraseSize
  width : g.width =
    if settings.addressing = .fourByte ∧ Geometry.bankSize < g.size then .four else .three
  firstBank : chip.bank = 0
  threeByte : chip.fourByte = false
  addressable : settings.addressing ≠ .threeByte ∨ g.size ≤ Geometry.bankSize

/-- The state of a driver that has come to the end of a scan. -/
def completed (state : DriverState) (g : Geometry) : DriverState :=
  { state with lifecycle := .ready, geometry := some g }

theorem Untouched.attuned (h : Untouched settings chip state d) (hsuits : Suits settings chip g)
    (hlock : state.lockCheck = none) {bus : Chip} {bank : Option BankRegister}
    (hbus : ∃ fourByte, bus = { d.bus with fourByte })
    (hrouted : Routed g ⟨bus, completed { state with bank } g⟩) :
    Attuned g settings chip.busyPolls ⟨bus, completed { state with bank } g⟩ := by
  obtain ⟨fourByte, rfl⟩ := hbus
  have hspan : d.bus.eraseSpan g.eraseCommand = chip.eraseSpan g.eraseCommand := by
    rw [Chip.eraseSpan, Chip.eraseSpan, h.part]
  exact {
    rest := ⟨h.rest.released, h.rest.unseen, h.rest.settled⟩
    scanned := rfl
    layout := rfl
    chosen := h.chosen
    unlocked := hlock
    polls := h.polls
    busy_le := h.busy_le
    memory := (congrArg ByteArray.size h.memory).trans hsuits.memory
    page := h.pageSize.trans hsuits.page
    span := hspan.trans hsuits.span
    routed := hrouted }

/-- Setting up the addressing makes all of the part reachable. -/
theorem setUpAddressing_ok (h : Untouched settings chip state d) (hsuits : Suits settings chip g)
    (hlock : state.lockCheck = none) (hbank : state.bank = none) (entry : Part) :
    ∃ bus bank, setUpAddressing entry g d = .ok () ⟨bus, { state with bank }⟩ ∧
      bus.memory = chip.memory ∧ bus.bank = 0 ∧
      Attuned g settings chip.busyPolls ⟨bus, completed { state with bank } g⟩ := by
  obtain ⟨held, known⟩ := d
  obtain rfl : known = state := h.known
  have hfirst : held.bank = 0 := h.bank.trans hsuits.firstBank
  have hthree : held.fourByte = false := h.fourByte.trans hsuits.threeByte
  have hwidth := hsuits.width
  have hsame : { known with bank := none } = known := by rw [← hbank]
  by_cases hsmall : g.size ≤ Geometry.bankSize
  · rw [if_neg (by omega)] at hwidth
    have hdone : setUpAddressing entry g (⟨held, known⟩ : Driver Chip) = .ok () ⟨held, known⟩ := by
      rw [setUpAddressing, if_pos hsmall]
      rfl
    refine ⟨held, none, ?_, h.memory, hfirst, h.attuned hsuits hlock ⟨held.fourByte, rfl⟩
      (.small rfl hwidth hthree hfirst hsmall)⟩
    rw [hsame, hdone]
  · have hlarge : Geometry.bankSize < g.size := by omega
    rw [setUpAddressing, if_neg hsmall]
    cases haddressing : settings.addressing with
    | threeByte => exact absurd hsuits.addressable (by simp [haddressing, hsmall])
    | fourByte =>
      rw [if_pos ⟨haddressing, hlarge⟩] at hwidth
      have hsend := @Command.send_eq held (Bytes.ofList [Opcode.enterFourByte.byte]) (by simp)
        .empty
      have henter : (held.transact (Bytes.toList (Bytes.ofList [Opcode.enterFourByte.byte]))
          (Bytes.toList .empty)).2 = { held with fourByte := true } :=
        Chip.transact_enterFourByte h.rest.quiet
      rw [henter] at hsend
      refine ⟨{ held with fourByte := true }, none, (bind_of_ok (getState_eq _) _).trans ?_,
        h.memory, hfirst, h.attuned hsuits hlock ⟨true, rfl⟩ (.wide rfl hwidth rfl)⟩
      rw [← h.chosen] at haddressing
      rw [haddressing, hsame]
      exact bind_of_ok (onBus_of_ok hsend known) _
    | bankRegister =>
      rw [if_neg (by simp [haddressing])] at hwidth
      let register : BankRegister :=
        ⟨(bankCommands entry).1, (bankCommands entry).2, held.bank⟩
      refine ⟨held, some register, (bind_of_ok (getState_eq _) _).trans ?_, h.memory, hfirst,
        h.attuned hsuits hlock ⟨held.fourByte, rfl⟩ (.banked register rfl
          (bankCommands_writes entry) rfl hwidth hthree)⟩
      rw [← h.chosen] at haddressing
      rw [haddressing]
      exact bind_of_ok (receive_bank h.rest.quiet known entry) _

theorem equip_cases (h : Untouched settings chip state d) {entry : Part}
    (hsuits : Suits settings chip (.derive entry settings)) (hlock : state.lockCheck = none)
    (hbank : state.bank = none) :
    (∃ bus bank, equip entry d = .ok (.derive entry settings)
        ⟨bus, { state with geometry := some (.derive entry settings), bank }⟩ ∧
      bus.memory = chip.memory ∧ bus.bank = 0 ∧
      Attuned (.derive entry settings) settings chip.busyPolls
        ⟨bus, completed { state with bank } (.derive entry settings)⟩) ∨
    wantsQuad settings ∧ ∃ cause d', equip entry d = .error cause d' := by
  obtain ⟨held, known⟩ := d
  obtain rfl : known = state := h.known
  have hchosen := h.chosen
  subst hchosen
  let g := Geometry.derive entry known.settings
  have h₁ : Untouched known.settings chip { known with geometry := some g }
      ⟨held, { known with geometry := some g }⟩ :=
    ⟨h.rest, h.part, h.memory, h.pageSize, h.bank, h.fourByte, h.polls, h.busy_le, rfl, rfl⟩
  have htail {d₂ : Driver Chip}
      (h₂ : Untouched known.settings chip { known with geometry := some g } d₂) :
      ∃ bus bank, (setUpAddressing entry g >>= fun _ => pure g) d₂ =
          .ok g ⟨bus, { known with geometry := some g, bank }⟩ ∧
        bus.memory = chip.memory ∧ bus.bank = 0 ∧
        Attuned g known.settings chip.busyPolls ⟨bus, completed { known with bank } g⟩ := by
    obtain ⟨bus, bank, hsetUp, hbus⟩ := setUpAddressing_ok h₂ hsuits hlock hbank entry
    exact ⟨bus, bank, bind_of_ok hsetUp _, hbus⟩
  rw [equip_eq]
  cases hquad : wantsQuad known.settings with
  | false => exact .inl (htail h₁)
  | true =>
    rcases keeps_enableQuad entry _ h₁ with ⟨_, d₂, henable, h₂⟩ | ⟨cause, d₂, henable, -⟩
    · obtain ⟨bus, bank, hsetUp, hbus⟩ := htail h₂
      exact .inl ⟨bus, bank, (bind_of_ok henable _).trans hsetUp, hbus⟩
    · exact .inr ⟨rfl, cause, d₂, bind_of_error henable _⟩

theorem scan_cases (hrest : chip.AtRest) (hbusy : chip.busy ≤ settings.leftover chip.busyPolls)
    {entry : Part} (ht : chip.part.TakenFor entry)
    (hsuits : Suits settings chip (.derive entry settings)) :
    (∃ ready, scan (create chip settings) = .ok (.derive entry settings) ready ∧
      ready.bus.memory = chip.memory ∧ ready.bus.bank = 0 ∧
      Attuned (.derive entry settings) settings chip.busyPolls ready) ∨
    wantsQuad settings ∧ ∃ cause failed, scan (create chip settings) = .error cause failed := by
  let state : DriverState := { settings, lifecycle := .scanning }
  have hstart : modifyState
      (fun state => { state with lifecycle := .scanning, geometry := none, bank := none })
      (create chip settings) = .ok () ⟨chip, state⟩ := rfl
  have h : Untouched settings chip state ⟨chip, state⟩ :=
    ⟨hrest, rfl, rfl, rfl, rfl, rfl, rfl, hbusy, rfl, rfl⟩
  have hidentify := identify_eq hrest.quiet ht state 4
  -- clearing the protection bits may fail, and nothing depends on it
  have hbringUp : ∃ d, Untouched settings chip state d ∧
      bringUp ⟨chip, state⟩ = equip entry d := by
    rw [bringUp_eq]
    by_cases hprotected : powersUpProtected entry
    · obtain ⟨_, d, hwrite, hd⟩ := (keeps_writeStatus 0).attempt_ok h
      refine ⟨d, hd, (bind_of_ok hidentify _).trans ?_⟩
      rw [if_pos hprotected]
      exact bind_of_ok hwrite _
    · refine ⟨_, h, (bind_of_ok hidentify _).trans ?_⟩
      rw [if_neg hprotected]
  obtain ⟨d, hd, hbringUp⟩ := hbringUp
  rcases equip_cases hd hsuits rfl rfl with ⟨bus, bank, hequip, hbus⟩ |
    ⟨hquad, cause, d', hequip⟩
  · have hdone := attempt_of_ok (hbringUp.trans hequip)
    exact .inl ⟨_, (bind_of_ok hstart _).trans (bind_of_ok hdone _), hbus⟩
  · have hdone := attempt_of_error (hbringUp.trans hequip)
    exact .inr ⟨hquad, cause, _, (bind_of_ok hstart _).trans (bind_of_ok hdone _)⟩

end Equip

end NorFlash.Driver
