import NorFlash.Proofs.DriverRules
import NorFlash.Proofs.Tiling

/-!
What a driver knows after a scan, on any bus. The accesses of a scan leave the knowledge of the
driver alone, so a scan that succeeds has recorded the layout of an entry of the table, and the
bank register if that layout needs it.
-/
namespace NorFlash.Driver

variable {β α : Type}

/-- The driver knows just this. -/
def Knows (state : DriverState) (d : Driver β) : Prop :=
  d.state = state

section Keeping

variable {state : DriverState}

theorem knows_onBus (action : EStateM Error β α) : Keeps (Knows state) (onBus action) := by
  rintro ⟨bus, _⟩ rfl
  cases h : action bus with
  | ok value bus' => exact .inl ⟨value, _, onBus_of_ok h _, rfl⟩
  | error cause bus' => exact .inr ⟨cause, _, onBus_of_error h _, rfl⟩

theorem knows_modifyBus (change : β → β) : Keeps (Knows state) (modifyBus change) := by
  rintro d rfl
  exact .inl ⟨(), d.mapBus change, rfl, rfl⟩

theorem knows_getState : Keeps (Knows state) (getState : Action β DriverState) := by
  rintro d rfl
  exact .inl ⟨d.state, d, rfl, rfl⟩

variable [SpiBus β]

theorem knows_readRegister (op : Opcode) :
    Keeps (Knows state) (readRegister op : Action β UInt8) :=
  (knows_onBus _).bind fun _ => .pure _

theorem knows_isReady : Keeps (Knows state) (isReady : Action β Bool) := by
  refine (knows_readRegister _).bind fun status => knows_getState.bind fun known => ?_
  dsimp only
  split
  · exact (knows_readRegister _).bind fun flags => (Keeps.pure _).bind fun _ => .pure _
  · exact (Keeps.pure _).bind fun _ => .pure _

theorem knows_pollFrom (attempts check : Nat) :
    Keeps (Knows state) (pollFrom attempts check : Action β Poll.Outcome) := by
  induction attempts generalizing check with
  | zero => exact .pure _
  | succ attempts ih =>
    intro d hd
    rw [pollFrom, Poll.untilReadyFrom_succ]
    rcases knows_isReady d hd with ⟨ready, d', hcheck, hd'⟩ | ⟨cause, d', hcheck, hd'⟩
    · rw [hcheck]
      cases ready with
      | true => exact .inl ⟨_, d', rfl, hd'⟩
      | false => exact ih (check + 1) (d'.mapBus (SpiBus.delay 100)) hd'
    · rw [hcheck]
      exact .inr ⟨cause, d', rfl, hd'⟩

theorem knows_waitReady (timeout : UInt32) :
    Keeps (Knows state) (waitReady timeout : Action β Unit) := by
  refine Keeps.bind (knows_pollFrom (Poll.attempts timeout) 0) fun outcome => ?_
  cases outcome with
  | ready => exact .pure _
  | exhausted => exact .throw _

theorem knows_write (frame : Frame) (payload : Option ByteArray) :
    Keeps (Knows state) (write frame payload : Action β Unit) :=
  knows_getState.bind fun _ => (knows_onBus _).bind fun _ => (knows_onBus _).bind fun _ =>
    (knows_waitReady _).bind fun _ => knows_modifyBus _

theorem knows_receive (frame : Frame) (length : Nat) :
    Keeps (Knows state) (receive frame length : Action β ByteArray) :=
  (knows_onBus _).bind fun _ => (knows_modifyBus _).bind fun _ => .pure _

theorem knows_enableQuad (part : Part) :
    Keeps (Knows state) (enableQuad part : Action β Unit) :=
  .enableQuad (knows_readRegister _) (knows_readRegister _) (fun _ => knows_write _ _)
    (fun _ => (knows_readRegister _).bind fun _ => knows_write _ _) part

end Keeping

section Recording

variable [SpiBus β] {part : Part} {g : Geometry} {d d' : Driver β}

theorem readId_records {found : Option Part} (h : readId d = .ok found d') :
    d'.state = d.state ∧ ∀ part ∈ found, part ∈ Part.table := by
  obtain ⟨outcome, d₁, hattempt, hfound⟩ := ok_of_bind h
  have hd₁ : Knows d.state d₁ := (knows_onBus _).attempt.of_ok rfl hattempt
  cases outcome with
  | ok answer =>
    cases hfound
    exact ⟨hd₁, fun part hpart => List.mem_of_find?_eq_some hpart⟩
  | error cause =>
    cases hfound
    exact ⟨hd₁, fun part hpart => by cases hpart⟩

theorem identify_records {attempts : Nat} (h : identify attempts d = .ok part d') :
    d'.state = d.state ∧ part ∈ Part.table := by
  induction attempts generalizing d with
  | zero => cases h
  | succ attempts ih =>
    obtain ⟨found, d₁, hread, hrest⟩ := ok_of_bind h
    obtain ⟨hstate, htable⟩ := readId_records hread
    cases found with
    | none =>
      obtain ⟨hafter, hpart⟩ := ih hrest
      exact ⟨hafter.trans hstate, hpart⟩
    | some entry =>
      cases hrest
      exact ⟨hstate, htable part rfl⟩

/-- The bank register that a driver uses for a part: the one of the part if the settings ask for
it and the part needs it, and none else. -/
def Registers (part : Part) (settings : FlashSettings) (bank : Option BankRegister) : Prop :=
  if settings.addressing = .bankRegister ∧
      Geometry.bankSize < (Geometry.derive part settings).size then
    ∃ current, bank = some ⟨(bankCommands part).1, (bankCommands part).2, current⟩
  else bank = none

theorem setUpAddressing_records (hbank : d.state.bank = none)
    (h : setUpAddressing part (.derive part d.state.settings) d = .ok () d') :
    ∃ bank, d'.state = { d.state with bank } ∧ Registers part d.state.settings bank := by
  have hsame {d' : Driver β} (hd' : d'.state = d.state) :
      d'.state = { d.state with bank := none } := by rw [hd', ← hbank]
  unfold setUpAddressing at h
  by_cases hsmall : (Geometry.derive part d.state.settings).size ≤ Geometry.bankSize
  · rw [if_pos hsmall] at h
    cases h
    refine ⟨none, hsame rfl, ?_⟩
    rw [Registers, if_neg fun hbanked => Nat.not_le.mpr hbanked.2 hsmall]
  rw [if_neg hsmall] at h
  obtain ⟨state, d₁, hget, haccess⟩ := ok_of_bind h
  cases hget
  cases haddressing : d.state.settings.addressing with
  | threeByte =>
    rw [haddressing] at haccess
    cases haccess
    refine ⟨none, hsame rfl, ?_⟩
    rw [Registers, if_neg (by simp [haddressing])]
  | fourByte =>
    rw [haddressing] at haccess
    have hd' : Knows d.state d' :=
      ((knows_onBus _).bind fun _ => knows_modifyBus _).of_ok rfl haccess
    refine ⟨none, hsame hd', ?_⟩
    rw [Registers, if_neg (by simp [haddressing])]
  | bankRegister =>
    rw [haddressing] at haccess
    obtain ⟨answer, d₁, hreceive, hmodify⟩ := ok_of_bind haccess
    have hd₁ : Knows d.state d₁ := (knows_receive _ _).of_ok rfl hreceive
    cases hmodify
    refine ⟨some ⟨(bankCommands part).1, (bankCommands part).2, Bytes.byteAt answer 0⟩, ?_, ?_⟩
    · rw [← hd₁]
      rfl
    · rw [Registers, if_pos ⟨haddressing, Nat.lt_of_not_le hsmall⟩]
      exact ⟨_, rfl⟩

theorem equip_records (hbank : d.state.bank = none) (h : equip part d = .ok g d') :
    g = .derive part d.state.settings ∧ ∃ bank,
      d'.state = { d.state with geometry := some g, bank } ∧
      Registers part d.state.settings bank := by
  let laid : DriverState := { d.state with geometry := some (.derive part d.state.settings) }
  have htail {d₁ : Driver β} (hd₁ : Knows laid d₁)
      (h : (setUpAddressing part (.derive part d.state.settings) >>= fun _ =>
        pure (Geometry.derive part d.state.settings)) d₁ = .ok g d') :
      g = .derive part d.state.settings ∧ ∃ bank,
        d'.state = { d.state with geometry := some g, bank } ∧
        Registers part d.state.settings bank := by
    obtain ⟨_, d₂, hsetUp, hend⟩ := ok_of_bind h
    cases hend
    have hsettings : d₁.state.settings = d.state.settings := by rw [hd₁]
    rw [← hsettings] at hsetUp
    obtain ⟨bank, hstate, hregisters⟩ := setUpAddressing_records (by rw [hd₁]; exact hbank) hsetUp
    rw [hsettings] at hregisters
    exact ⟨rfl, bank, by rw [hstate, hd₁], hregisters⟩
  have hlaid : Knows laid (⟨d.bus, laid⟩ : Driver β) := rfl
  rw [equip_eq] at h
  by_cases hquad : wantsQuad d.state.settings = true
  · rw [if_pos hquad] at h
    obtain ⟨_, d₁, henable, hrest⟩ := ok_of_bind h
    exact htail ((knows_enableQuad part).of_ok hlaid henable) hrest
  · rw [if_neg hquad] at h
    exact htail hlaid h

theorem prepare_records (hbank : d.state.bank = none) (h : prepare part d = .ok g d') :
    g = .derive part d.state.settings ∧ ∃ bank,
      d'.state = { d.state with geometry := some g, bank } ∧
      Registers part d.state.settings bank := by
  unfold prepare at h
  by_cases hprotected : powersUpProtected part = true
  · rw [if_pos hprotected] at h
    obtain ⟨outcome, d₁, hclear, hequip⟩ := ok_of_bind h
    have hd₁ : d₁.state = d.state := (knows_write _ _).attempt.of_ok rfl hclear
    rw [← hd₁] at hbank ⊢
    exact equip_records hbank hequip
  · rw [if_neg hprotected] at h
    exact equip_records hbank h

theorem bringUp_records (hbank : d.state.bank = none) (h : bringUp d = .ok g d') :
    ∃ part ∈ Part.table, g = .derive part d.state.settings ∧ ∃ bank,
      d'.state = { d.state with geometry := some g, bank } ∧
      Registers part d.state.settings bank := by
  rw [bringUp_eq_prepare] at h
  obtain ⟨part, d₁, hidentify, hprepare⟩ := ok_of_bind h
  obtain ⟨hd₁, hpart⟩ := identify_records hidentify
  rw [← hd₁] at hbank ⊢
  exact ⟨part, hpart, prepare_records hbank hprepare⟩

/-- A scan that succeeds, on any bus and whatever the driver knew before, leaves a driver that has
identified a part of the table under its settings. -/
theorem identified_of_scan (h : scan d = .ok g d') :
    ∃ part ∈ Part.table, g = .derive part d.state.settings ∧
      d'.state.settings = d.state.settings ∧ d'.state.Identified part := by
  obtain ⟨_, d₁, hstart, hrest⟩ := ok_of_bind h
  cases hstart
  obtain ⟨outcome, d₂, hattempt, hend⟩ := ok_of_bind hrest
  cases outcome with
  | error cause =>
    obtain ⟨_, _, -, hthrow⟩ := ok_of_bind hend
    cases hthrow
  | ok geometry =>
    obtain ⟨part, hpart, hlayout, bank, hstate, hregisters⟩ :=
      bringUp_records rfl (ok_of_attempt hattempt)
    cases hend
    obtain ⟨bus, state⟩ := d₂
    subst hstate hlayout
    refine ⟨part, hpart, rfl, rfl, rfl, ?_, ?_⟩
    · intro haddressing hlarge
      exact (if_pos ⟨haddressing, hlarge⟩).mp hregisters
    · intro hunused
      have hnone : ¬ (d.state.settings.addressing = .bankRegister ∧
          Geometry.bankSize < (Geometry.derive part d.state.settings).size) := by
        rintro ⟨haddressing, hlarge⟩
        rcases hunused with hother | hsmall
        · exact hother haddressing
        · exact Nat.not_le.mpr hlarge hsmall
      exact (if_neg hnone).mp hregisters

end Recording

end NorFlash.Driver
