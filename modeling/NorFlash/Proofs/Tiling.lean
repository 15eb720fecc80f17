import NorFlash.Proofs.BringUp
import NorFlash.Proofs.FirstFailure
import NorFlash.Proofs.Listener

/-!
The array commands of a request tile its range: decoded from the bus alone, they are for
consecutive pieces that make up the range, each within what one command can carry.
-/
namespace NorFlash

/-- The pieces make up `[start, stop)` one after the other. -/
def Tiles : Nat → List Piece → Nat → Prop
  | start, [], stop => start = stop
  | start, piece :: pieces, stop =>
    piece.position = start ∧ piece.length ≠ 0 ∧ Tiles (start + piece.length) pieces stop

theorem Piece.tiles_tile (limit : Nat → Nat) (position length : Nat) :
    Tiles position (tile limit position length) (position + length) := by
  induction length using Nat.strongRecOn generalizing position with
  | _ length ih =>
    by_cases hzero : length = 0
    · rw [hzero, tile_zero]
      exact rfl
    · rw [tile_of_ne_zero _ _ hzero]
      refine ⟨rfl, by dsimp only; omega, ?_⟩
      have hrest := ih (length - min length (max 1 (limit position))) (by omega)
        (position + min length (max 1 (limit position)))
      have hend : position + min length (max 1 (limit position)) +
          (length - min length (max 1 (limit position))) = position + length := by omega
      rwa [hend] at hrest

theorem Tiles.total {pieces : List Piece} {start stop : Nat} (h : Tiles start pieces stop) :
    start + Piece.total pieces = stop := by
  induction pieces generalizing start with
  | nil => exact h
  | cons piece pieces ih =>
    have hrest := ih h.2.2
    rw [Piece.total]
    omega

/-- A range that is a whole number of units is cut into units. -/
theorem Piece.eq_unit_of_mem_tile {unit position length : Nat} (hposition : position % unit = 0)
    (hlength : length % unit = 0) (hunit : 0 < unit) {piece : Piece}
    (h : piece ∈ tile (fun _ => unit) position length) :
    piece.position % unit = 0 ∧ piece.length = unit := by
  induction length using Nat.strongRecOn generalizing position with
  | _ length ih =>
    by_cases hzero : length = 0
    · rw [hzero, tile_zero] at h
      cases h
    · have hle : unit ≤ length :=
        Nat.le_of_dvd (Nat.pos_of_ne_zero hzero) (Nat.dvd_of_mod_eq_zero hlength)
      have hfirst : min length (max 1 unit) = unit := by omega
      rw [tile_of_ne_zero _ _ hzero, hfirst] at h
      cases h with
      | head => exact ⟨hposition, rfl⟩
      | tail _ hrest =>
        refine ih (length - unit) (by omega) ?_ ?_ hrest
        · rw [Nat.add_mod_right, hposition]
        · rw [← Nat.mod_eq_sub_mod hle, hlength]

/-- All bytes of a piece lie in the same 16 MiB bank of the same die. -/
def Geometry.SameBank (g : Geometry) (piece : Piece) : Prop :=
  ∀ i < piece.length,
    (g.locate (piece.position + i)).upper = (g.locate piece.position).upper ∧
    (g.locate (piece.position + i)).address / bankSize =
      (g.locate piece.position).address / bankSize

theorem Geometry.InSeries.sameBank {g : Geometry} (hg : g.InSeries) {piece : Piece}
    (h : piece.length ≤ max 1 (g.readLimit piece.position)) : g.SameBank piece := by
  obtain ⟨position, length⟩ := piece
  intro i hi
  have hspan : g.bankSpan = 0x1000000 := by
    unfold bankSpan
    rcases hg.wiring with hwiring | hwiring <;> rw [hwiring] <;> rfl
  unfold readLimit bankOf at h
  rw [hspan] at h
  unfold bankSize locate at *
  dsimp only at *
  rcases hg.wiring with hwiring | hwiring
  · rw [hwiring] at h ⊢
    dsimp only at *
    rw [if_neg (by simp)] at h
    exact ⟨rfl, by omega⟩
  · rw [hwiring] at h ⊢
    dsimp only at *
    by_cases hupper : g.size / 2 ≤ position
    · rw [if_pos hupper, if_neg (by simp)] at h
      rw [if_pos hupper, if_pos (by omega)]
      exact ⟨rfl, by dsimp only at *; omega⟩
    · rw [if_neg hupper, if_pos ⟨rfl, rfl⟩] at h
      dsimp only at h
      rw [if_neg hupper, if_neg (by omega)]
      exact ⟨rfl, by dsimp only at *; omega⟩

/-- Every part has sectors and pages. -/
theorem Part.table_units :
    Part.table.all (fun part =>
      decide (0 < part.sectorSize.toNat ∧ 0 < (Geometry.derive part {}).pageSize)) = true := by
  decide +kernel

section Derived

variable {part : Part} {settings : FlashSettings}

theorem Geometry.inSeries_derive (hwiring : settings.wiring ≠ .parallel) :
    (derive part settings).InSeries where
  wiring := by
    change settings.wiring = .single ∨ settings.wiring = .stacked
    cases h : settings.wiring with
    | single => exact .inl rfl
    | stacked => exact .inr rfl
    | parallel => exact absurd h hwiring
  size_lt := UInt32.toNat_lt _

theorem Geometry.erases_derive :
    (derive part settings).eraseCommand = .eraseSmallSector ∨
      (derive part settings).eraseCommand = .eraseSector := by
  simp only [derive]
  split
  · exact .inl rfl
  · exact .inr rfl

theorem Geometry.units_derive (hpart : part ∈ Part.table)
    (hwiring : settings.wiring ≠ .parallel) :
    0 < (derive part settings).pageSize ∧ 0 < (derive part settings).eraseSize := by
  obtain ⟨hsector, hpage⟩ := of_decide_eq_true (List.all_eq_true.mp Part.table_units part hpart)
  have hshift : settings.wiring.shift = 0 := by
    cases h : settings.wiring with
    | single => rfl
    | stacked => rfl
    | parallel => exact absurd h hwiring
  have hpages : (derive part settings).pageSize = (derive part {}).pageSize := by
    simp only [derive, hshift]
    rfl
  have herases : (derive part settings).eraseSize =
      if settings.smallSectors && part.features.contains .smallSector then 4096
      else part.sectorSize.toNat := by
    simp [derive, hshift]
  rw [hpages, herases]
  refine ⟨hpage, ?_⟩
  split
  · decide
  · exact hsector

end Derived

/-- A driver that has identified this part: the layout is that of the part under the settings, and
the bank register is in use exactly when the settings ask for it and the part needs it. -/
structure DriverState.Identified (part : Part) (state : DriverState) : Prop where
  layout : state.layout? = some (.derive part state.settings)
  register : state.settings.addressing = .bankRegister →
    Geometry.bankSize < (Geometry.derive part state.settings).size →
    ∃ current, state.bank =
      some ⟨(Driver.bankCommands part).1, (Driver.bankCommands part).2, current⟩
  unused : state.settings.addressing ≠ .bankRegister ∨
    (Geometry.derive part state.settings).size ≤ Geometry.bankSize → state.bank = none

theorem DriverState.Identified.tracks {part : Part} {state : DriverState}
    (h : state.Identified part) (haddressing : state.settings.addressing ≠ .threeByte)
    {listener : Listener} (hlower : state.settings.wiring = .single → listener.upper = false)
    (hbank : listener.bank = (state.bank.map (·.current)).getD 0) :
    Tracks (.derive part state.settings) state listener := by
  have hwidth : (Geometry.derive part state.settings).width =
      if state.settings.addressing = .fourByte ∧
        Geometry.bankSize < (Geometry.derive part state.settings).size then .four
      else .three := rfl
  refine ⟨?_, hlower⟩
  by_cases hlarge : Geometry.bankSize < (Geometry.derive part state.settings).size
  · cases haddress : state.settings.addressing with
    | threeByte => exact absurd haddress haddressing
    | fourByte =>
      rw [if_pos ⟨haddress, hlarge⟩] at hwidth
      exact .wide (h.unused (.inl (by simp [haddress]))) hwidth
    | bankRegister =>
      obtain ⟨current, hregister⟩ := h.register haddress hlarge
      rw [if_neg (by simp [haddress])] at hwidth
      rw [hregister] at hbank
      exact .banked _ hregister (Driver.bankCommands_writes part) hbank.symm hwidth
  · have hunused := h.unused (.inr (Nat.le_of_not_lt hlarge))
    rw [if_neg fun hwide => hlarge hwide.2] at hwidth
    rw [hunused] at hbank
    exact .small hunused hwidth hbank (Nat.le_of_not_lt hlarge)

/-- A bus that goes along with the driver: whatever calls it goes through from now on, none of
them fails, and no wait of the driver runs out. -/
def Obliging {β : Type} [SpiBus β] (settings : FlashSettings) (flagged : Bool) (bus : β) : Prop :=
  ∀ calls bus', Replays bus calls bus' → BusCall.Untroubled calls ∧
    ∀ before polls, calls = before ++ polls →
      ¬ Idle flagged (Poll.attempts settings.programTimeout) polls ∧
      ¬ Idle flagged (Poll.attempts settings.eraseTimeout) polls

theorem Obliging.failure_eq_none {β : Type} [SpiBus β] {settings : FlashSettings} {flagged : Bool}
    {bus bus' : β} (h : Obliging settings flagged bus) {calls : List BusCall}
    {failure : Option Error} (hreplays : Replays bus calls bus')
    (hends : Ends settings flagged calls failure) : failure = none := by
  obtain ⟨huntroubled, hwait⟩ := h calls bus' hreplays
  cases hends with
  | finished untroubled => rfl
  | failed untroubled request cause =>
    have hlast := huntroubled _ (List.mem_append_right _ List.mem_cons_self)
    cases hlast
  | exhausted untroubled chosen idle =>
    obtain ⟨hprogram, herase⟩ := hwait _ _ rfl
    rcases chosen with rfl | rfl
    · exact absurd idle hprogram
    · exact absurd idle herase

/-- The pieces heard from these calls make up a range and are fit for one command each. -/
structure Listener.Covers (listener : Listener) (g : Geometry) (calls : List BusCall)
    (offset length : Nat) (fits : Piece → Prop) : Prop where
  tiles : Tiles offset (listener.heard g calls).pieces (offset + length)
  fits : ∀ piece ∈ (listener.heard g calls).pieces, fits piece

section Course

variable {flagged : Bool} {g : Geometry} {commands : Piece → List Phase} {state : DriverState}
  {listener : Listener} {limit : Nat → Nat} {offset length : Nat} {progress : Progress}
  {fits : Piece → Prop}

theorem Course.covers
    (h : Course flagged g commands state (Piece.tile limit offset length) progress)
    (hnone : progress.failure = none) (hg : g.InSeries) (htracks : Tracks g state listener)
    (hsilent : listener.pieces = []) (hin : offset + length ≤ g.size)
    (hhears : ∀ piece ∈ Piece.tile limit offset length, Listener.HearsPiece g commands piece)
    (hfits : ∀ piece ∈ Piece.tile limit offset length, fits piece) :
    listener.Covers g progress.calls offset length fits := by
  have hinside : ∀ piece ∈ Piece.tile limit offset length, piece.position < g.size := by
    intro piece hpiece
    obtain ⟨hlength, -, -, hend⟩ := Piece.of_mem_tile hpiece
    omega
  have hheard := h.heard hnone hg htracks hinside hhears
  rw [hsilent, List.nil_append] at hheard
  constructor
  · rw [hheard]
    exact Piece.tiles_tile limit offset length
  · rw [hheard]
    exact hfits

/-- A request that fails has carried out less than all of it. -/
theorem Course.length_lt {pieces : List Piece}
    (h : Course flagged g commands state pieces progress)
    (hpieces : ∀ piece ∈ pieces, piece.length ≠ 0) (hfailed : progress.failure ≠ none) :
    progress.length < Piece.total pieces := by
  induction h with
  | finished state => exact absurd rfl hfailed
  | @completed state piece pieces calls progress performed rest ih =>
    have hrest := ih (fun piece h => hpieces piece (List.mem_cons_of_mem _ h)) hfailed
    have hlength : (progress.cons piece calls).length = piece.length + progress.length := rfl
    rw [hlength, Piece.total]
    omega
  | @stopped state piece pieces calls cause performed =>
    have hfirst := hpieces piece List.mem_cons_self
    change 0 < piece.length + Piece.total pieces
    omega

theorem Course.length_eq
    (h : Course flagged g commands state (Piece.tile limit offset length) progress)
    (hnone : progress.failure = none) : progress.length = length := by
  have hcompleted := h.completed_eq hnone
  have htotal := (Piece.tiles_tile limit offset length).total
  rw [← hcompleted] at htotal
  exact Nat.add_left_cancel htotal

theorem Progress.failure_of_outcome {σ α : Type} {value value' : α} {s s' : σ}
    (h : concluded (progress.outcome value) s = .ok value' s') : progress.failure = none := by
  unfold outcome at h
  cases hfailure : progress.failure with
  | none => rfl
  | some cause =>
    rw [hfailure] at h
    cases h

theorem Progress.data_of_readOutcome {σ : Type} {bytes : ByteArray} {s s' : σ}
    (h : concluded progress.readOutcome s = .ok bytes s') : bytes = progress.data := by
  unfold readOutcome outcome at h
  split at h
  · cases hfailure : progress.failure with
    | none =>
      rw [hfailure] at h
      cases h
      rfl
    | some cause =>
      rw [hfailure] at h
      cases h
  · cases h
    rfl

end Course

theorem Call.Goes.accepted {β : Type} [SpiBus β] {call : Call} {d : Driver β}
    {calls : List BusCall} {refused : Error → Prop} {went : Progress → Prop}
    (h : call.Goes d calls refused went) {g : Geometry} (hlayout : d.state.layout? = some g)
    (haccepted : call.objection? g d.state.lockCheck = none) :
    ∃ progress, Course g.useFlagStatus g (call.commands g d.state.settings) d.state
        (call.pieces g (SpiBus.maxWrite d.bus)) progress ∧
      calls = progress.calls ∧
      Ends d.state.settings g.useFlagStatus calls progress.failure ∧ went progress := by
  have hrefusal : call.refusal? d.state = none := by
    rw [refusal?, hlayout]
    exact haccepted
  unfold Goes at h
  rw [hrefusal] at h
  obtain ⟨g', progress, hlayout', hrest⟩ := h
  obtain rfl : g = g' := Option.some.inj (hlayout.symm.trans hlayout')
  exact ⟨progress, hrest⟩

namespace Driver

section Obliged

variable {β : Type} [SpiBus β] {d : Driver β} {g : Geometry}
  (hlayout : d.state.layout? = some g)
  (hsize : ∀ g, d.state.geometry = some g → g.size < UInt32.size)
  (hobliging : Obliging d.state.settings g.useFlagStatus d.bus)
include hlayout hobliging

include hsize in
theorem erase_of_obliging {offset length : Nat}
    (haccepted : (Call.erase offset length).objection? g d.state.lockCheck = none) :
    ∃ d', erase offset length d = .ok () d' := by
  obtain ⟨progress, hcourse, hcalls, hends, d', herase⟩ :=
    (erase_goes hsize offset length).accepted hlayout haccepted
  have hnone := hobliging.failure_eq_none
    (replays_callsOf (simulates_erase (Traced.busSimulation_forgets d.bus) offset length)) hends
  rw [Progress.outcome, hnone] at herase
  exact ⟨d', herase⟩

include hsize in
theorem program_of_obliging {offset : Nat} {data : ByteArray}
    (hpayload : SpiBus.maxWrite d.bus ≠ some 0)
    (haccepted : (Call.program offset data).objection? g d.state.lockCheck = none) :
    ∃ d', program offset data d = .ok () d' := by
  obtain ⟨progress, hcourse, hcalls, hends, d', hprogram⟩ :=
    (program_goes hsize hpayload offset data).accepted hlayout haccepted
  have hnone := hobliging.failure_eq_none
    (replays_callsOf (simulates_program (Traced.busSimulation_forgets d.bus) offset data)) hends
  rw [Progress.outcome, hnone] at hprogram
  exact ⟨d', hprogram⟩

theorem read_of_obliging {offset length : Nat}
    (haccepted : (Call.read offset length).objection? g d.state.lockCheck = none) :
    ∃ bytes d', read offset length d = .ok bytes d' ∧ bytes.size = length := by
  obtain ⟨progress, hcourse, hcalls, hends, d', hread⟩ :=
    (read_goes offset length).accepted hlayout haccepted
  have hnone := hobliging.failure_eq_none
    (replays_callsOf (simulates_read (Traced.busSimulation_forgets d.bus) offset length)) hends
  have houtcome : progress.readOutcome = .ok progress.data := by
    unfold Progress.readOutcome Progress.outcome
    rw [hnone]
    split <;> rfl
  rw [houtcome] at hread
  exact ⟨progress.data, d', hread, progress.size_data.trans (hcourse.length_eq hnone)⟩

end Obliged

section Covers

variable {β : Type} [SpiBus β] {d : Driver β} {g : Geometry} {listener : Listener}
  (hlayout : d.state.layout? = some g) (hg : g.InSeries) (htracks : Tracks g d.state listener)
  (hsilent : listener.pieces = [])
include hlayout hg htracks hsilent

omit [SpiBus β] htracks hsilent in
theorem size_lt_of_layout (g' : Geometry) (h : d.state.geometry = some g') :
    g'.size < UInt32.size := by
  obtain rfl : g = g' :=
    Option.some.inj ((DriverState.geometry_of_layout? hlayout).2.symm.trans h)
  exact hg.size_lt

theorem erase_covers {offset length : Nat}
    (herases : g.eraseCommand = .eraseSmallSector ∨ g.eraseCommand = .eraseSector)
    (hunit : 0 < g.eraseSize) (hoffset : offset % g.eraseSize = 0)
    (hlength : length % g.eraseSize = 0) (hin : offset + length ≤ g.size)
    (hopen : ¬ d.state.lockCheck.any (· offset length)) :
    (Obliging d.state.settings g.useFlagStatus d.bus → ∃ d', erase offset length d = .ok () d') ∧
    ∀ d', erase offset length d = .ok () d' →
      listener.Covers g (callsOf (erase offset length) d) offset length fun piece =>
        piece.position % g.eraseSize = 0 ∧ piece.length = g.eraseSize := by
  have haccepted : (Call.erase offset length).objection? g d.state.lockCheck = none := by
    rw [Call.objection?, if_neg (by omega), if_neg (by omega), if_neg hopen]
  obtain ⟨progress, hcourse, hcalls, hends, d', herase⟩ :=
    (erase_goes (size_lt_of_layout hlayout hg) offset length).accepted hlayout haccepted
  constructor
  · intro hobliging
    exact erase_of_obliging hlayout (size_lt_of_layout hlayout hg) hobliging haccepted
  · intro d'' hok
    have hnone := Progress.failure_of_outcome (herase.symm.trans hok)
    have hpieces (piece : Piece)
        (hpiece : piece ∈ Piece.tile (fun _ => g.eraseSize) offset length) :=
      Piece.eq_unit_of_mem_tile hoffset hlength hunit hpiece
    rw [hcalls]
    exact hcourse.covers hnone hg htracks hsilent hin
      (fun piece h => Piece.hears_erase _ herases (hpieces piece h).2 _) hpieces

theorem program_covers {offset : Nat} {data : ByteArray} (hpage : 0 < g.pageSize)
    (hpayload : SpiBus.maxWrite d.bus ≠ some 0) (hin : offset + data.size ≤ g.size)
    (hopen : ¬ d.state.lockCheck.any (· offset data.size)) :
    (Obliging d.state.settings g.useFlagStatus d.bus → ∃ d', program offset data d = .ok () d') ∧
    ∀ d', program offset data d = .ok () d' →
      listener.Covers g (callsOf (program offset data) d) offset data.size fun piece =>
        piece.position % g.pageSize + piece.length ≤ g.pageSize ∧
        ∀ limit, SpiBus.maxWrite d.bus = some limit → piece.length ≤ limit := by
  have haccepted : (Call.program offset data).objection? g d.state.lockCheck = none := by
    rw [Call.objection?, if_neg (by omega), if_neg hopen]
  obtain ⟨progress, hcourse, hcalls, hends, d', hprogram⟩ :=
    (program_goes (size_lt_of_layout hlayout hg) hpayload offset data).accepted hlayout haccepted
  constructor
  · intro hobliging
    exact program_of_obliging hlayout (size_lt_of_layout hlayout hg) hobliging hpayload haccepted
  · intro d'' hok
    have hnone := Progress.failure_of_outcome (hprogram.symm.trans hok)
    rw [hcalls]
    refine hcourse.covers hnone hg htracks hsilent hin (fun piece hpiece => ?_)
      fun piece hpiece => ?_
    · obtain ⟨-, -, hstart, hend⟩ := Piece.of_mem_tile hpiece
      exact Piece.hears_program _ (by omega) _
    · obtain ⟨-, hlimit, -, -⟩ := Piece.of_mem_tile hpiece
      have hrest := Nat.mod_lt piece.position hpage
      unfold Geometry.programLimit at hlimit
      cases hmax : SpiBus.maxWrite d.bus with
      | none =>
        rw [hmax] at hlimit
        dsimp only at hlimit
        exact ⟨by omega, fun limit h => by cases h⟩
      | some limit =>
        have hpositive : limit ≠ 0 := fun h => hpayload (by rw [hmax, h])
        rw [hmax] at hlimit
        dsimp only at hlimit
        refine ⟨by omega, fun limit' h => ?_⟩
        obtain rfl := Option.some.inj h
        omega

theorem read_covers {offset length : Nat} (hin : offset + length ≤ g.size) :
    (Obliging d.state.settings g.useFlagStatus d.bus →
      ∃ bytes d', read offset length d = .ok bytes d' ∧ bytes.size = length) ∧
    ∀ bytes d', read offset length d = .ok bytes d' → bytes.size = length →
      listener.Covers g (callsOf (read offset length) d) offset length g.SameBank := by
  have haccepted : (Call.read offset length).objection? g d.state.lockCheck = none := by
    rw [Call.objection?, if_neg (by omega)]
  obtain ⟨progress, hcourse, hcalls, hends, d', hread⟩ :=
    (read_goes offset length).accepted hlayout haccepted
  constructor
  · intro hobliging
    exact read_of_obliging hlayout hobliging haccepted
  · intro bytes d'' hok hall
    have hnone : progress.failure = none := by
      cases hfailure : progress.failure with
      | none => rfl
      | some cause =>
        -- a read that fails falls short of its range, whatever it returns
        have hshort := hcourse.length_lt (fun _ h => (Piece.of_mem_tile h).1) (by simp [hfailure])
        have htotal := (Piece.tiles_tile g.readLimit offset length).total
        have hdata := Progress.data_of_readOutcome (hread.symm.trans hok)
        rw [hdata, progress.size_data] at hall
        change progress.length < Piece.total (Piece.tile g.readLimit offset length) at hshort
        omega
    rw [hcalls]
    exact hcourse.covers hnone hg htracks hsilent hin (fun piece _ => Piece.hears_read piece _)
      fun piece hpiece => hg.sameBank (Piece.of_mem_tile hpiece).2.1

end Covers

end Driver

open Driver in
/-- With a part of the table on its own or stacked, and with all of it reachable, the requests of
a driver that knows the bank last written go through on every bus that goes along with them. What
is heard of a request that goes through makes up its range: reads within one bank of one die,
programs within one page and one payload, erases of one aligned unit. -/
theorem array_commands_tile {β : Type} [SpiBus β] (d : Driver β) {part : Part}
    (hpart : part ∈ Part.table) (hidentified : d.state.Identified part)
    (hwiring : d.state.settings.wiring ≠ .parallel)
    (haddressing : d.state.settings.addressing ≠ .threeByte)
    (hpayload : SpiBus.maxWrite d.bus ≠ some 0) (listener : Listener)
    (hsilent : listener.pieces = [])
    (hlower : d.state.settings.wiring = .single → listener.upper = false)
    (hbank : listener.bank = d.currentBank?.getD 0) :
    let g := Geometry.derive part d.state.settings
    let obliging := Obliging d.state.settings g.useFlagStatus d.bus
    (∀ offset length, offset + length ≤ g.size →
      (obliging → ∃ bytes d', read offset length d = .ok bytes d' ∧ bytes.size = length) ∧
      ∀ bytes d', read offset length d = .ok bytes d' → bytes.size = length →
        listener.Covers g (callsOf (read offset length) d) offset length g.SameBank) ∧
    (∀ offset data, offset + data.size ≤ g.size →
      ¬ d.state.lockCheck.any (· offset data.size) →
      (obliging → ∃ d', program offset data d = .ok () d') ∧
      ∀ d', program offset data d = .ok () d' →
        listener.Covers g (callsOf (program offset data) d) offset data.size fun piece =>
          piece.position % g.pageSize + piece.length ≤ g.pageSize ∧
          ∀ limit, SpiBus.maxWrite d.bus = some limit → piece.length ≤ limit) ∧
    ∀ offset length, offset % g.eraseSize = 0 → length % g.eraseSize = 0 →
      offset + length ≤ g.size → ¬ d.state.lockCheck.any (· offset length) →
      (obliging → ∃ d', erase offset length d = .ok () d') ∧
      ∀ d', erase offset length d = .ok () d' →
        listener.Covers g (callsOf (erase offset length) d) offset length fun piece =>
          piece.position % g.eraseSize = 0 ∧ piece.length = g.eraseSize := by
  intro g obliging
  have hlayout := hidentified.layout
  have hg : g.InSeries := Geometry.inSeries_derive hwiring
  have htracks : Tracks g d.state listener := hidentified.tracks haddressing hlower hbank
  obtain ⟨hpage, hunit⟩ := Geometry.units_derive hpart hwiring
  refine ⟨fun offset length hin => read_covers hlayout hg htracks hsilent hin,
    fun offset data hin hopen => ?_, fun offset length hoffset hlength hin hopen => ?_⟩
  · exact program_covers hlayout hg htracks hsilent hpage hpayload hin hopen
  · exact erase_covers hlayout hg htracks hsilent Geometry.erases_derive hunit hoffset hlength hin
      hopen

section Constant

variable {β : Type} [SpiBus β] {answer : ByteArray}

theorem received_of_replays
    (hanswer : ∀ request (bus : β), ∃ bus', SpiBus.transfer request bus = .ok answer bus')
    {bus bus' : β} {calls : List BusCall} (h : Replays bus calls bus') {request : Transfer}
    {received : Except Error ByteArray} (hmem : .transfer request received ∈ calls) :
    received = .ok answer := by
  induction h with
  | start => cases hmem
  | @next calls call bus bus' before answered ih =>
    rcases List.mem_append.mp hmem with hbefore | hlast
    · exact ih hbefore
    · rw [← List.mem_singleton.mp hlast] at answered
      obtain ⟨after, htransfer⟩ := hanswer request bus
      cases answered with
      | received h =>
        rw [htransfer] at h
        cases h
        rfl
      | failed h =>
        rw [htransfer] at h
        cases h

theorem calls_of_sent {requests : List Transfer} {calls : List BusCall}
    (h : Sent requests calls none)
    (hanswers : ∀ request received, .transfer request received ∈ calls → received = .ok answer) :
    calls = requests.map fun request => .transfer request (.ok answer) := by
  generalize hnone : (none : Option Error) = failure at h
  induction h with
  | done => rfl
  | failed request requests cause => cases hnone
  | answered request bytes rest ih =>
    have hfirst := hanswers request (.ok bytes) List.mem_cons_self
    have hrest := ih (fun request received h =>
      hanswers request received (List.mem_cons_of_mem _ h)) hnone
    rw [List.map_cons, ← hrest, hfirst]

variable (answer) in
/-- A bus that answers the same to everything goes along with the driver, if that answer is what
a ready part gives as its status and as its flag status. -/
theorem obliging_of_answer
    (hanswer : ∀ request (bus : β), ∃ bus', SpiBus.transfer request bus = .ok answer bus')
    (hready : (Bytes.byteAt answer 0 &&& StatusBit.writeInProgress == 0 &&
      Bytes.byteAt answer 0 &&& FlagStatusBit.controllerIdle != 0) = true)
    (bus : β) {settings : FlashSettings} {flagged : Bool}
    (hprogram : 0 < Poll.attempts settings.programTimeout)
    (herase : 0 < Poll.attempts settings.eraseTimeout) : Obliging settings flagged bus := by
  intro calls bus' hreplays
  constructor
  · rintro (⟨request, received⟩ | _ | _ | _) hcall
    · rw [received_of_replays hanswer hreplays hcall]
      rfl
    · rfl
    · rfl
    · rfl
  · rintro before polls rfl
    have hsettles {attempts : Nat} (hpositive : 0 < attempts) : ¬ Idle flagged attempts polls := by
      intro hidle
      cases hidle with
      | nil => cases hpositive
      | @again check rest checks sent busy idle =>
        have hcheck := calls_of_sent sent fun request received h =>
          received_of_replays hanswer hreplays (List.mem_append_right _ (List.mem_append_left _ h))
        have hpasses : Check.passes check = true := by
          rw [hcheck]
          cases flagged with
          | false => exact (Bool.and_eq_true_iff.mp hready).1
          | true => exact hready
        rw [hpasses] at busy
        cases busy
    exact ⟨hsettles hprogram, hsettles herase⟩

end Constant

/-- A bus whose part is always ready. -/
structure ReadyBus where
  maxWrite : Option Nat

namespace ReadyBus

/-- What a ready part answers as its status and as its flag status. -/
def answer : ByteArray :=
  Bytes.ofList [FlagStatusBit.controllerIdle]

instance : SpiBus ReadyBus where
  transfer _ bus := .ok answer bus
  maxWrite bus := bus.maxWrite
  release bus := bus
  selectUpper _ bus := bus
  delay _ bus := bus

theorem obliging (bus : ReadyBus) {settings : FlashSettings} (flagged : Bool)
    (hprogram : 0 < Poll.attempts settings.programTimeout)
    (herase : 0 < Poll.attempts settings.eraseTimeout) : Obliging settings flagged bus :=
  obliging_of_answer answer (fun _ _ => ⟨_, rfl⟩) rfl bus hprogram herase

/-- Two stacked dies of two banks each, at the second bank of the upper one. -/
def dies : Driver ReadyBus :=
  let settings : FlashSettings := { wiring := .stacked }
  ⟨⟨some 64⟩,
    { settings
      lifecycle := .ready
      geometry := some (.derive Part.w25q256 settings)
      bank := some ⟨.readExtendedAddress, .writeExtendedAddress, 1⟩
      upper := true }⟩

end ReadyBus

open Driver in
/-- A read from the first bank of the lower die to the first bank of the upper one. -/
theorem array_commands_tile_dies :
    Part.w25q256 ∈ Part.table ∧ ReadyBus.dies.state.Identified Part.w25q256 ∧
    ∃ bytes d', read 0xfffff0 0x1000020 ReadyBus.dies = .ok bytes d' ∧ bytes.size = 0x1000020 ∧
      Listener.Covers { upper := true, bank := 1 } (.derive Part.w25q256 { wiring := .stacked })
        (callsOf (read 0xfffff0 0x1000020) ReadyBus.dies) 0xfffff0 0x1000020
        (Geometry.derive Part.w25q256 { wiring := .stacked }).SameBank := by
  have hsize : (Geometry.derive Part.w25q256 { wiring := .stacked }).size = 0x4000000 := by
    decide +kernel
  have hidentified : ReadyBus.dies.state.Identified Part.w25q256 := by
    refine ⟨rfl, fun _ _ => ⟨1, by decide +kernel⟩, ?_⟩
    rintro (haddressing | hsmall)
    · exact absurd rfl haddressing
    · exact absurd hsmall (by decide +kernel)
  obtain ⟨hread, -⟩ := array_commands_tile ReadyBus.dies Part.w25q256_mem hidentified (by decide)
    (by decide) (by decide) { upper := true, bank := 1 } rfl (by decide) rfl
  have hinside : 0xfffff0 + 0x1000020 ≤
      (Geometry.derive Part.w25q256 { wiring := .stacked }).size := by
    rw [hsize]
    decide
  obtain ⟨hgoes, hcovers⟩ := hread 0xfffff0 0x1000020 hinside
  obtain ⟨bytes, d', hok, hall⟩ := hgoes (ReadyBus.obliging _ _ (by decide) (by decide))
  exact ⟨Part.w25q256_mem, hidentified, bytes, d', hok, hall, hcovers bytes d' hok hall⟩

end NorFlash
