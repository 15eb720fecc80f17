import NorFlash.Proofs.Lifecycle

/-!
A scan in a quad mode, on any bus. It succeeds only for the vendors whose way to quad mode is
known, and where that is a bit of a register, the last thing that the quad set-up does is to read
the register and find the bit set.
-/
namespace NorFlash

section Resumption

variable {β : Type}

/-- The same bus, with calls noted ahead of the others. -/
def Traced.Follows (before : List BusCall) (traced later : Traced β) : Prop :=
  later = ⟨traced.bus, before ++ traced.calls⟩

theorem Traced.follows_note (before calls : List BusCall) (bus : β) (call : BusCall) :
    Follows before ⟨bus, calls ++ [call]⟩ ⟨bus, before ++ calls ++ [call]⟩ :=
  congrArg (Traced.mk bus) (List.append_assoc before calls [call])

/-- The calls noted so far change nothing of those that follow. -/
theorem Traced.busSimulation_follows [SpiBus β] (before : List BusCall) :
    BusSimulation (Follows before : Traced β → Traced β → Prop) where
  transfer request := by
    rintro ⟨bus, calls⟩ _ rfl
    cases h : SpiBus.transfer request bus with
    | ok bytes bus' =>
      rw [transfer_of_ok h, transfer_of_ok h]
      exact .ok (follows_note ..)
    | error cause bus' =>
      rw [transfer_of_error h, transfer_of_error h]
      exact .error (follows_note ..)
  maxWrite := by
    rintro traced _ rfl
    rfl
  release := by
    rintro traced _ rfl
    exact follows_note ..
  selectUpper upper := by
    rintro traced _ rfl
    exact follows_note ..
  delay microseconds := by
    rintro traced _ rfl
    exact follows_note ..

namespace Driver

/-- The driver over the bus alone. -/
def untraced (t : Driver (Traced β)) : Driver β :=
  ⟨t.bus.bus, t.state⟩

variable [SpiBus β] {α : Type} {x : Action (Traced β) α} {y : Action β α}

/-- An operation in the middle of a run adds the calls to the trace that it makes on its own. -/
theorem calls_of_ok (hxx : ∀ before, Simulates (Alike (Traced.Follows before)) x x)
    (hxy : ∀ start, Simulates (Alike (Traced.Forgets start)) x y) {t t' : Driver (Traced β)}
    {value : α} (h : x t = .ok value t') :
    y t.untraced = .ok value t'.untraced ∧
      t'.bus.calls = t.bus.calls ++ callsOf x t.untraced := by
  have hlike : Alike (Traced.Follows t.bus.calls) t.untraced.traced t :=
    ⟨congrArg (Traced.mk t.bus.bus) (List.append_nil _).symm, rfl⟩
  have hagree := hxx t.bus.calls hlike
  rw [h] at hagree
  generalize hfresh : x t.untraced.traced = r at hagree
  cases hagree with
  | ok states =>
    obtain ⟨hsame, hcalls⟩ := ok_of_traced (hxy _) hfresh
    have hbus := states.bus
    rw [Traced.Follows] at hbus
    constructor
    · rw [hsame, untraced, hbus, states.state]
    · rw [hbus, hcalls]

/-- The calls noted lead from the first bus to the present one. -/
theorem keeps_replays {start : β} (hxy : Simulates (Alike (Traced.Forgets start)) x y) :
    Keeps (fun t : Driver (Traced β) => Replays start t.bus.calls t.bus.bus) x := by
  intro t ht
  have hagree := hxy (⟨⟨rfl, ht⟩, rfl⟩ : Alike (Traced.Forgets start) t t.untraced)
  generalize x t = r at hagree
  generalize y t.untraced = r' at hagree
  cases hagree with
  | @ok _ t' _ states =>
    have hreplays := states.bus.replays
    rw [← states.bus.same] at hreplays
    exact .inl ⟨_, t', rfl, hreplays⟩
  | @error _ t' _ states =>
    have hreplays := states.bus.replays
    rw [← states.bus.same] at hreplays
    exact .inr ⟨_, t', rfl, hreplays⟩

end Driver

end Resumption

/-- The last calls read a register, and the value read is this one. -/
def EndsReading (op : Opcode) (value : UInt8) (calls : List BusCall) : Prop :=
  ∃ earlier command data echo bytes, op.registerRead = [command, data] ∧
    calls = earlier ++ [.transfer command (.ok echo), .transfer data (.ok bytes)] ∧
    value = Bytes.byteAt bytes 0

/-- The calls end with a read of a register in which some of these bits are set. -/
def Confirms (op : Opcode) (bit : UInt8) (calls : List BusCall) : Prop :=
  ∃ value, EndsReading op value calls ∧ value &&& bit ≠ 0

namespace Driver

theorem endsReading_readRegister {β : Type} [SpiBus β] {op : Opcode} {t t' : Driver (Traced β)}
    {value : UInt8} (h : readRegister op t = .ok value t') :
    EndsReading op value t'.bus.calls := by
  obtain ⟨⟨bus, before⟩, state⟩ := t
  have hend := carries_readRegister false state op bus before
  rw [h] at hend
  cases hend with
  | ok performed gives =>
    obtain ⟨echo, bytes, hreceived, rfl⟩ := gives
    have hsent := performed.of_command
    cases hsent with
    | answered command first rest =>
      cases rest with
      | answered data second rest =>
        cases rest with
        | done =>
          cases hreceived
          exact ⟨before, _, _, echo, bytes, rfl, rfl, rfl⟩

section EnableQuad

variable {β : Type} {part : Part} {d d' : Driver β}

/-- When the bit has been enabled, the last thing done was to read it as set. -/
theorem enableQuadBit_confirmed {I : Driver β → Prop} {read : Action β UInt8}
    {write : UInt8 → Action β Unit} {bit : UInt8} (hread : Keeps I read)
    (hwrite : ∀ value, Keeps I (write value)) (hd : I d)
    (h : enableQuadBit read write bit d = .ok () d') :
    ∃ d₁ value, I d₁ ∧ read d₁ = .ok value d' ∧ value &&& bit ≠ 0 := by
  obtain ⟨value, d₁, hfirst, hrest⟩ := ok_of_bind h
  split at hrest
  case isTrue hset =>
    cases hrest
    exact ⟨d, value, hd, hfirst, hset⟩
  case isFalse hclear =>
    obtain ⟨_, d₂, hwritten, hconfirm⟩ := ok_of_bind hrest
    obtain ⟨answer, d₃, hattempt, hend⟩ := ok_of_bind hconfirm
    have hd₂ := (hwrite _).of_ok (hread.of_ok hd hfirst) hwritten
    cases answer with
    | error cause => cases hend
    | ok confirmed =>
      dsimp only at hend
      split at hend
      case isTrue hset =>
        cases hend
        exact ⟨d₂, confirmed, hd₂, ok_of_attempt hattempt, hset⟩
      case isFalse hunset => cases hend

/-- Each vendor has its own way to quad mode, or none. -/
theorem enableQuad_cases [SpiBus β] (h : enableQuad part d = .ok () d') :
    (part.manufacturer = Manufacturer.macronix ∧
      enableQuadBit readStatus writeStatus StatusBit.quadEnable d = .ok () d') ∨
    ((part.manufacturer = Manufacturer.spansion ∨ part.manufacturer = Manufacturer.winbond) ∧
      enableQuadBit readConfig writeConfig ConfigBit.quadEnable d = .ok () d') ∨
    part.manufacturer = Manufacturer.micron := by
  unfold enableQuad at h
  split at h
  case isTrue hmacronix => exact .inl ⟨hmacronix, h⟩
  case isFalse =>
    split at h
    case isTrue hconfig => exact .inr (.inl ⟨hconfig, h⟩)
    case isFalse =>
      split at h
      case isTrue hmicron => exact .inr (.inr hmicron)
      case isFalse => cases h

end EnableQuad

/-- Quad mode has been enabled in these calls: the vendor has a way to it, and where that is a bit
of a register, the register was read last and the bit was set. -/
structure QuadConfirmed (manufacturer : UInt8) (calls : List BusCall) : Prop where
  vendor : manufacturer ∈
    [Manufacturer.macronix, Manufacturer.spansion, Manufacturer.winbond, Manufacturer.micron]
  status : manufacturer = Manufacturer.macronix →
    Confirms .readStatus StatusBit.quadEnable calls
  config : manufacturer = Manufacturer.spansion ∨ manufacturer = Manufacturer.winbond →
    Confirms .readConfig ConfigBit.quadEnable calls

theorem keeps_true {β α : Type} (x : Action β α) : Keeps (fun _ => True) x := by
  intro d _
  cases h : x d with
  | ok value d' => exact .inl ⟨value, d', rfl, trivial⟩
  | error cause d' => exact .inr ⟨cause, d', rfl, trivial⟩

theorem quadConfirmed_of_ok {β : Type} [SpiBus β] {part : Part} {t t' : Driver (Traced β)}
    (h : enableQuad part t = .ok () t') : QuadConfirmed part.manufacturer t'.bus.calls := by
  have hconfirms {op : Opcode} {write : UInt8 → Action (Traced β) Unit} {bit : UInt8}
      (henable : enableQuadBit (readRegister op) write bit t = .ok () t') :
      Confirms op bit t'.bus.calls := by
    obtain ⟨t₁, value, -, hread, hset⟩ :=
      enableQuadBit_confirmed (keeps_true _) (fun _ => keeps_true _) trivial henable
    exact ⟨value, endsReading_readRegister hread, hset⟩
  rcases enableQuad_cases h with ⟨hvendor, hstatus⟩ | ⟨hvendor, hconfig⟩ | hvendor
  · constructor
    · simp [hvendor]
    · exact fun _ => hconfirms hstatus
    · rw [hvendor]
      exact fun hother => absurd hother (by decide)
  · constructor
    · rcases hvendor with hvendor | hvendor <;> simp [hvendor]
    · intro hother
      rw [hother] at hvendor
      exact absurd hvendor (by decide)
    · exact fun _ => hconfirms hconfig
  · constructor
    · simp [hvendor]
    · rw [hvendor]
      exact fun hother => absurd hother (by decide)
    · rw [hvendor]
      exact fun hother => absurd hother (by decide)

section Steps

variable {β : Type} [SpiBus β] {g : Geometry} {d d' : Driver β}

/-- The steps of a scan in a quad mode that has succeeded, with the driver after each of them. -/
inductive QuadScan (d : Driver β) (g : Geometry) (d' : Driver β) : Prop where
  | steps {found cleared enabled reached : Driver β}
    (identify : identify scanAttempts ⟨d.bus, scanning d.state⟩ = .ok g.part found)
    (clear : if powersUpProtected g.part then
      ∃ outcome, attempt (writeStatus 0) found = .ok outcome cleared else cleared = found)
    (enable : enableQuad g.part ⟨cleared.bus, { cleared.state with geometry := some g }⟩ =
      .ok () enabled)
    (address : setUpAddressing g.part g enabled = .ok () reached)
    (bus_eq : d'.bus = reached.bus)

theorem quadScan_of_scan (hquad : wantsQuad d.state.settings = true) (h : scan d = .ok g d') :
    QuadScan d g d' := by
  obtain ⟨_, _, hstart, hrest⟩ := ok_of_bind h
  cases hstart
  obtain ⟨outcome, d₁, hattempt, hend⟩ := ok_of_bind hrest
  cases outcome with
  | error cause =>
    obtain ⟨_, _, -, hthrow⟩ := ok_of_bind hend
    cases hthrow
  | ok geometry =>
    cases hend
    have hbringUp := ok_of_attempt hattempt
    rw [bringUp_eq_prepare] at hbringUp
    obtain ⟨part, found, hidentify, hprepare⟩ := ok_of_bind hbringUp
    have hknown : found.state = scanning d.state := (identify_records hidentify).1
    obtain ⟨cleared, hclear, hstate, hequip⟩ : ∃ cleared : Driver β,
        (if powersUpProtected part then
          ∃ outcome, attempt (writeStatus 0) found = .ok outcome cleared else cleared = found) ∧
        cleared.state = found.state ∧ equip part cleared = .ok g d₁ := by
      unfold prepare at hprepare
      split at hprepare
      case isTrue hprotected =>
        obtain ⟨outcome, cleared, hwrite, hequip⟩ := ok_of_bind hprepare
        have hkept : cleared.state = found.state := (knows_write _ _).attempt.of_ok rfl hwrite
        exact ⟨cleared, by rw [if_pos hprotected]; exact ⟨outcome, hwrite⟩, hkept, hequip⟩
      case isFalse hopen =>
        exact ⟨found, by rw [if_neg hopen], rfl, hprepare⟩
    have hsettings : cleared.state.settings = d.state.settings := by
      rw [hstate, hknown]
      rfl
    rw [equip_eq, hsettings, if_pos hquad] at hequip
    obtain ⟨_, enabled, henable, hlast⟩ := ok_of_bind hequip
    obtain ⟨_, reached, haddress, hdone⟩ := ok_of_bind hlast
    cases hdone
    exact .steps hidentify hclear henable haddress rfl

/-- What the trace of a scan in a quad mode shows: it leads up to the quad set-up, which confirms
the mode, and only the addressing is set up after it. -/
theorem quad_confirmed (hquad : wantsQuad d.state.settings = true) (h : scan d = .ok g d') :
    ∃ before start enabled reached, Replays d.bus before start.bus ∧
      enableQuad g.part start = .ok () enabled ∧
      setUpAddressing g.part g enabled = .ok () reached ∧ d'.bus = reached.bus ∧
      callsOf scan d = before ++ callsOf (enableQuad g.part) start ++
        callsOf (setUpAddressing g.part g) enabled ∧
      QuadConfirmed g.part.manufacturer (callsOf (enableQuad g.part) start) := by
  have hforget (start : β) := Traced.busSimulation_forgets start
  have hfollow (before : List BusCall) :=
    Traced.busSimulation_follows (β := β) before
  have htraced := traced_of_ok (simulates_scan (hforget d.bus)) h
  obtain @⟨found, cleared, enabled, reached, hidentify, hclear, henable, haddress, hbus⟩ :=
    quadScan_of_scan (d := d.traced) hquad htraced
  -- the calls noted up to the quad set-up lead to the bus that it starts from
  have hfound : Replays d.bus found.bus.calls found.bus.bus :=
    (keeps_replays (simulates_identify (hforget d.bus) _)).of_ok .start hidentify
  have hbefore : Replays d.bus cleared.bus.calls cleared.bus.bus := by
    split at hclear
    case isTrue =>
      obtain ⟨outcome, hwrite⟩ := hclear
      exact (keeps_replays (simulates_write (hforget d.bus) ..)).attempt.of_ok hfound hwrite
    case isFalse =>
      rw [hclear]
      exact hfound
  obtain ⟨hstart, hquadCalls⟩ :=
    calls_of_ok (fun before => simulates_enableQuad (hfollow before) _)
      (fun start => simulates_enableQuad (hforget start) _) henable
  obtain ⟨hreached, haddressCalls⟩ :=
    calls_of_ok (fun before => simulates_setUpAddressing (hfollow before) ..)
      (fun start => simulates_setUpAddressing (hforget start) ..) haddress
  have hcalls := congrArg Traced.calls hbus
  dsimp only at hcalls
  refine ⟨cleared.bus.calls, _, enabled.untraced, reached.untraced, hbefore, hstart, hreached,
    congrArg Traced.bus hbus, ?_, ?_⟩
  · rw [hcalls, haddressCalls, hquadCalls]
  · have hfresh := traced_of_ok (simulates_enableQuad (hforget _) _) hstart
    exact (quadConfirmed_of_ok hfresh :)

end Steps

end Driver

end NorFlash
