import NorFlash.Proofs.Fulfilment

/-!
The bank register of parallel dies. A position is halved to the address on each die, but the bank
of that address is the one that the position itself would have, so the commands for positions
from two banks on reach other bytes, which are those of lower positions as well.
-/
namespace NorFlash

/-- The byte of each die that the commands for a position of parallel dies reach. -/
def Geometry.reachedByte (position : Nat) : Nat :=
  position / 2 / (2 * bankSize) * bankSize + position / 2 % bankSize

theorem Geometry.reachedByte_eq_half_iff (position : Nat) :
    reachedByte position = position / 2 ↔ position < 2 * bankSize := by
  unfold reachedByte bankSize
  omega

/-- Positions two bytes apart reach different bytes exactly on dies of one bank. -/
theorem Geometry.reachedByte_ne_iff (size : Nat) :
    (∀ p q, p + 2 ≤ q → q < size → reachedByte p ≠ reachedByte q) ↔ size ≤ 2 * bankSize := by
  constructor
  · intro hapart
    refine Nat.le_of_not_lt fun hlarge => ?_
    exact hapart 0 (2 * bankSize) (by decide) hlarge (by decide)
  · intro hsmall p q hpq hq
    have hp : p < 2 * bankSize := by omega
    rw [(reachedByte_eq_half_iff p).mpr hp,
      (reachedByte_eq_half_iff q).mpr (Nat.lt_of_lt_of_le hq hsmall)]
    omega

/-- What the commands for a piece reach on each die. -/
def Piece.onEachDie (piece : Piece) : Piece :=
  ⟨Geometry.reachedByte piece.position, piece.length⟩

/-- Commands for consecutive logical positions from this one on, each of which reaches half of its
position. -/
def Halved : Nat → List Piece → Prop
  | _, [] => True
  | start, piece :: pieces => piece.position = start / 2 ∧ Halved (start + piece.length) pieces

theorem Tiles.halved_iff {pieces : List Piece} {start stop : Nat} (h : Tiles start pieces stop) :
    Halved start (pieces.map Piece.onEachDie) ↔
      ∀ piece ∈ pieces, piece.position < 2 * Geometry.bankSize := by
  induction pieces generalizing start with
  | nil => simp [Halved]
  | cons piece pieces ih =>
    obtain ⟨rfl, -, hrest⟩ := h
    rw [List.map_cons, Halved, List.forall_mem_cons, ← Geometry.reachedByte_eq_half_iff,
      ← ih hrest]
    rfl

/-- A layout of dies side by side that are addressed by three bytes. -/
structure Geometry.SideBySide (g : Geometry) : Prop where
  wiring : g.wiring = .parallel
  width : g.width = .three
  size_lt : g.size < UInt32.size

theorem Geometry.SideBySide.bankOf_eq {g : Geometry} (hg : g.SideBySide) (address : Nat) :
    g.bankOf address = address / (2 * bankSize) := by
  unfold bankOf bankSpan
  rw [hg.wiring]
  rfl

/-- A listener of parallel dies that knows the bank the driver has selected. -/
structure Paired (state : DriverState) (listener : Listener) : Prop where
  inUse : ∃ register, state.bank = some register ∧
    (register.writeCommand = .writeBank ∨ register.writeCommand = .writeExtendedAddress) ∧
    register.current = listener.bank
  lower : listener.upper = false

section Hearing

variable {g : Geometry} {state final : DriverState} {listener : Listener} {flagged : Bool}
  {kind : Piece → List Phase → Prop} {pieces : List Piece} {calls : List BusCall}

theorem Paired.visit (h : Paired state listener) (hg : g.SideBySide) {position : Nat}
    (hin : position < g.size) :
    ∃ after, (Phase.visit g state position).foldl (Listener.hearPhase g) listener = after ∧
      Paired (.visited g state position) after ∧ after.pieces = listener.pieces ∧
      ∀ opcode rest, after.position g (opcode ::
        (g.width.encode (.ofNat (g.locate position).address) ++ rest)) =
          Geometry.reachedByte position := by
  obtain ⟨register, hregister, hwrites, hcurrent⟩ := h.inUse
  have hsize := hg.size_lt
  have hplace : (g.locate position).address = position / 2 := by
    unfold Geometry.locate
    rw [hg.wiring]
  have hvisit : Phase.visit g state position = Phase.selectBank g state (position / 2) := by
    unfold Phase.visit
    dsimp only
    rw [hplace, hg.wiring]
    rfl
  obtain ⟨command, hselect⟩ :=
    listener.foldl_selectBank (g := g) hregister hwrites (position / 2)
  have hbank : (if g.bankOf (position / 2) = register.current.toNat then listener.bank
      else .ofNat (g.bankOf (position / 2))) = .ofNat (g.bankOf (position / 2)) := by
    split
    case isTrue hsame => rw [hsame, hcurrent, UInt8.ofNat_toNat]
    case isFalse => rfl
  have hvalue : (UInt8.ofNat (g.bankOf (position / 2))).toNat =
      position / 2 / (2 * Geometry.bankSize) := by
    rw [hg.bankOf_eq, UInt8.toNat_ofNat_of_lt']
    unfold Geometry.bankSize UInt8.size
    unfold UInt32.size at hsize
    omega
  rw [hbank] at hselect
  refine ⟨_, rfl, ?_, ?_, fun opcode rest => ?_⟩
  · rw [hvisit, hselect]
    refine ⟨⟨{ register with current := .ofNat (g.bankOf (position / 2)) }, ?_, hwrites, rfl⟩,
      h.lower⟩
    unfold DriverState.visited DriverState.banked
    dsimp only
    rw [hregister, hplace]
    rfl
  · rw [hvisit, hselect]
  · have hlt : position / 2 < UInt32.size := by omega
    rw [hvisit, hselect, hplace, Listener.position_three _ hg.width hlt, h.lower, hvalue]
    exact Nat.zero_add _

theorem Visits.heard_onEachDie (h : Visits flagged g kind state pieces calls final)
    (hg : g.SideBySide) (hpaired : Paired state listener)
    (hin : ∀ piece ∈ pieces, piece.position < g.size)
    (hhears : ∀ piece ∈ pieces, ∀ phases, kind piece phases →
      ∀ reached, Listener.HearsAt g phases piece reached) :
    (listener.heard g calls).pieces = listener.pieces ++ pieces.map Piece.onEachDie ∧
      Paired final (listener.heard g calls) := by
  induction h generalizing listener with
  | nil state => exact ⟨(List.append_nil _).symm, hpaired⟩
  | @cons state final piece pieces phases calls more fits performed rest ih =>
    have hfirst : piece ∈ piece :: pieces := List.mem_cons_self
    obtain ⟨after, hvisit, hafter, hpieces, hposition⟩ := hpaired.visit hg (hin piece hfirst)
    have hcalls : listener.heard g calls =
        { after with command := [], pieces := after.pieces ++ [piece.onEachDie] } := by
      rw [performed.heard, List.foldl_append, hvisit]
      exact hhears piece hfirst phases fits _ after hposition
    have hnext : Paired (.visited g state piece.position) (listener.heard g calls) := by
      rw [hcalls]
      exact ⟨hafter.inUse, hafter.lower⟩
    obtain ⟨hrest, hfinal⟩ := ih hnext (fun piece h => hin piece (List.mem_cons_of_mem _ h))
      fun piece h => hhears piece (List.mem_cons_of_mem _ h)
    rw [Listener.heard_append]
    refine ⟨?_, hfinal⟩
    rw [hrest, hcalls, hpieces, List.append_assoc]
    rfl

end Hearing

section Requests

variable {β : Type} {d d' : Driver β} {part : Part} {listener : Listener}
  (hidentified : d.state.Identified part) (hwiring : d.state.settings.wiring = .parallel)
  (hbank : d.currentBank? = some listener.bank)
include hidentified hbank

theorem DriverState.Identified.bankInUse :
    d.state.settings.addressing = .bankRegister ∧
      Geometry.bankSize < (Geometry.derive part d.state.settings).size := by
  have hused : d.state.bank ≠ none := by
    intro hnone
    rw [Driver.currentBank?, hnone] at hbank
    cases hbank
  constructor
  · exact Decidable.byContradiction fun h => hused (hidentified.unused (.inl h))
  · exact Nat.lt_of_not_le fun h => hused (hidentified.unused (.inr h))

theorem DriverState.Identified.paired (hlower : listener.upper = false) :
    Paired d.state listener := by
  obtain ⟨haddressing, hlarge⟩ := hidentified.bankInUse hbank
  obtain ⟨current, hregister⟩ := hidentified.register haddressing hlarge
  rw [Driver.currentBank?, hregister] at hbank
  exact ⟨⟨_, hregister, Driver.bankCommands_writes part, Option.some.inj hbank⟩, hlower⟩

include hwiring

theorem DriverState.Identified.sideBySide :
    (Geometry.derive part d.state.settings).SideBySide where
  wiring := hwiring
  width := by
    have haddressing := (hidentified.bankInUse hbank).1
    simp [Geometry.derive, haddressing]
  size_lt := UInt32.toNat_lt _

variable (listener) in
/-- What is heard of a request that goes through. The listener and the driver agree on the bank
after it as before. -/
theorem Call.Succeeds.heard_onEachDie [SpiBus β] {call : Call} (h : call.Succeeds d d')
    (hsilent : listener.pieces = []) (hlower : listener.upper = false) :
    let g := Geometry.derive part d.state.settings
    (listener.heard g (call.callsOn d)).pieces =
      (call.pieces g (SpiBus.maxWrite d.bus)).map Piece.onEachDie ∧
    d'.state.Identified part ∧
    d'.currentBank? = some (listener.heard g (call.callsOn d)).bank := by
  intro g
  have hg : g.SideBySide := hidentified.sideBySide hwiring hbank
  obtain ⟨g', hlayout, haccepted, hvisits⟩ := h.visits
  obtain rfl : g = g' := Option.some.inj (hidentified.layout.symm.trans hlayout)
  obtain ⟨hpieces, hpaired⟩ := hvisits.heard_onEachDie hg (hidentified.paired hbank hlower)
    (fun piece hpiece => by
      have hinside := Call.inside_of_mem_pieces haccepted hpiece
      omega)
    fun piece hpiece phases hphases reached => by
      rw [hphases]
      exact Call.hears_commands haccepted Geometry.erases_derive _ hpiece reached
  rw [hsilent, List.nil_append] at hpieces
  refine ⟨hpieces, hvisits.identified hidentified, ?_⟩
  obtain ⟨register, hregister, -, hcurrent⟩ := hpaired.inUse
  rw [Driver.currentBank?, hregister, ← hcurrent]
  rfl

end Requests

/-- With parallel dies and a bank register in use, requests that are not refused go through on
every bus that goes along with them, and their commands reach the bytes `reachedByte` of their
positions. All commands reach half of their position, and no bytes are shared, exactly when the
part has no more than two banks. -/
theorem parallel_banks_reach_half_iff {β : Type} [SpiBus β] (d : Driver β) {part : Part}
    (hidentified : d.state.Identified part) (hwiring : d.state.settings.wiring = .parallel)
    (hpayload : SpiBus.maxWrite d.bus ≠ some 0)
    (hobliging : Obliging d.state.settings
      (Geometry.derive part d.state.settings).useFlagStatus d.bus)
    (listener : Listener) (hsilent : listener.pieces = []) (hlower : listener.upper = false)
    (hbank : d.currentBank? = some listener.bank) :
    let g := Geometry.derive part d.state.settings
    (∀ call : Call, call.refusal? d.state = none → ∃ d', call.Succeeds d d' ∧
      (listener.heard g (call.callsOn d)).pieces =
        (call.pieces g (SpiBus.maxWrite d.bus)).map Piece.onEachDie ∧
      d'.state.Identified part ∧
      d'.currentBank? = some (listener.heard g (call.callsOn d)).bank) ∧
    ((∀ call : Call, call.refusal? d.state = none → call.offset % 2 = 0 →
        Halved call.offset (listener.heard g (call.callsOn d)).pieces) ↔
      g.size ≤ 2 * Geometry.bankSize) ∧
    ((∀ p q, p + 2 ≤ q → q < g.size → Geometry.reachedByte p ≠ Geometry.reachedByte q) ↔
      g.size ≤ 2 * Geometry.bankSize) := by
  intro g
  have hlayout := hidentified.layout
  have hrefusal (call : Call) :
      call.refusal? d.state = call.objection? g d.state.lockCheck := by
    rw [Call.refusal?, hlayout]
  have hgoes (call : Call) (h : call.refusal? d.state = none) : ∃ d', call.Succeeds d d' ∧
      (listener.heard g (call.callsOn d)).pieces =
        (call.pieces g (SpiBus.maxWrite d.bus)).map Piece.onEachDie ∧
      d'.state.Identified part ∧
      d'.currentBank? = some (listener.heard g (call.callsOn d)).bank := by
    rw [hrefusal] at h
    obtain ⟨d', hsucceeds⟩ :=
      Call.succeeds_of_obliging hlayout (UInt32.toNat_lt _) hpayload hobliging h
    exact ⟨d', hsucceeds,
      hsucceeds.heard_onEachDie listener hidentified hwiring hbank hsilent hlower⟩
  have htiles (call : Call) : Tiles call.offset (call.pieces g (SpiBus.maxWrite d.bus))
      (call.offset + call.length) := by
    obtain ⟨limit, hpieces⟩ := call.pieces_eq_tile g (SpiBus.maxWrite d.bus)
    rw [hpieces]
    exact Piece.tiles_tile limit call.offset call.length
  refine ⟨hgoes, ⟨fun hhalved => ?_, fun hsmall call h _ => ?_⟩,
    Geometry.reachedByte_ne_iff g.size⟩
  · -- a read of the first byte behind two banks reaches the first byte of all
    refine Nat.le_of_not_lt fun hlarge => ?_
    have haccepted : (Call.read (2 * Geometry.bankSize) 1).refusal? d.state = none := by
      rw [hrefusal, Call.objection?, if_neg (by omega)]
    obtain ⟨d', -, hpieces, -⟩ := hgoes _ haccepted
    have hhalf := hhalved _ haccepted (by decide)
    rw [hpieces, (htiles _).halved_iff] at hhalf
    have hfirst := hhalf ⟨2 * Geometry.bankSize, 1⟩ (by
      rw [Call.pieces, Piece.tile_of_le Nat.one_ne_zero (Nat.le_max_left 1 _)]
      exact List.mem_cons_self)
    exact Nat.lt_irrefl _ hfirst
  · obtain ⟨d', -, hpieces, -⟩ := hgoes call h
    rw [hpieces, (htiles call).halved_iff]
    intro piece hpiece
    rw [hrefusal] at h
    have hinside := Call.inside_of_mem_pieces h hpiece
    omega

namespace ReadyBus

/-- Two parallel dies of two banks each. -/
def pair : Driver ReadyBus :=
  let settings : FlashSettings := { wiring := .parallel }
  ⟨⟨none⟩,
    { settings
      lifecycle := .ready
      geometry := some (.derive Part.w25q256 settings)
      bank := some ⟨.readExtendedAddress, .writeExtendedAddress, 0⟩ }⟩

theorem pair_identified : pair.state.Identified Part.w25q256 := by
  refine ⟨rfl, fun _ _ => ⟨0, by decide +kernel⟩, ?_⟩
  rintro (haddressing | hsmall)
  · exact absurd rfl haddressing
  · exact absurd hsmall (by decide +kernel)

theorem pair_obliging :
    Obliging pair.state.settings
      (Geometry.derive Part.w25q256 pair.state.settings).useFlagStatus pair.bus :=
  obliging _ _ (by decide) (by decide)

end ReadyBus

open ReadyBus in
/-- A read at the end of the first bank of the dies. -/
theorem parallel_banks_reach_half_iff_pair :
    let g := Geometry.derive Part.w25q256 pair.state.settings
    pair.state.Identified Part.w25q256 ∧ pair.state.settings.wiring = .parallel ∧
    Obliging pair.state.settings g.useFlagStatus pair.bus ∧ pair.currentBank? = some 0 ∧
    (Call.read 0x1fffff0 0x10).refusal? pair.state = none ∧
    (∃ d', (Call.read 0x1fffff0 0x10).Succeeds pair d') ∧
    (Listener.heard g { upper := false, bank := 0 }
      ((Call.read 0x1fffff0 0x10).callsOn pair)).pieces = [⟨0xfffff8, 0x10⟩] ∧
    ¬ g.size ≤ 2 * Geometry.bankSize := by
  intro g
  obtain ⟨hgoes, -⟩ := parallel_banks_reach_half_iff pair pair_identified rfl (by decide)
    pair_obliging { upper := false, bank := 0 } rfl rfl rfl
  have haccepted : (Call.read 0x1fffff0 0x10).refusal? pair.state = none := by decide +kernel
  obtain ⟨d', hsucceeds, hpieces, -⟩ := hgoes _ haccepted
  have htile : (Call.read 0x1fffff0 0x10).pieces g none = [⟨0x1fffff0, 0x10⟩] :=
    Piece.tile_of_le (by decide) (by decide +kernel)
  refine ⟨pair_identified, rfl, pair_obliging, rfl, haccepted, ⟨d', hsucceeds⟩,
    hpieces.trans ?_, by decide +kernel⟩
  exact (congrArg (List.map Piece.onEachDie) htile).trans (by decide +kernel)

open ReadyBus in
/-- An erase behind the first two banks erases the first unit of the part. -/
theorem erase_reaches_first_unit_pair :
    let g := Geometry.derive Part.w25q256 pair.state.settings
    let heard := Listener.heard g { upper := false, bank := 0 }
      ((Call.erase 0x2000000 0x2000).callsOn pair)
    (∃ d', (Call.erase 0x2000000 0x2000).Succeeds pair d') ∧ heard.pieces = [⟨0, 0x2000⟩] ∧
      ¬ Halved 0x2000000 heard.pieces := by
  intro g heard
  have haccepted : (Call.erase 0x2000000 0x2000).objection? g pair.state.lockCheck = none := by
    decide +kernel
  obtain ⟨d', hsucceeds⟩ := Call.succeeds_of_obliging (d := pair) rfl (UInt32.toNat_lt _)
    (by decide) pair_obliging haccepted
  obtain ⟨hpieces, -⟩ := hsucceeds.heard_onEachDie { upper := false, bank := 0 } pair_identified
    rfl rfl rfl rfl
  have htile : (Call.erase 0x2000000 0x2000).pieces g none = [⟨0x2000000, 0x2000⟩] :=
    Piece.tile_of_le (by decide) (by decide +kernel)
  have hheard : heard.pieces = [⟨0, 0x2000⟩] :=
    hpieces.trans ((congrArg (List.map Piece.onEachDie) htile).trans (by decide +kernel))
  refine ⟨⟨d', hsucceeds⟩, hheard, ?_⟩
  rw [hheard]
  exact fun h => absurd h.1 (by decide)

end NorFlash
