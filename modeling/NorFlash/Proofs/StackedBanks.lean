import NorFlash.Proofs.Fulfilment
import NorFlash.Proofs.ScanRecord

/-!
The bank registers of two stacked dies, of which each hears only the commands that are routed to
it. The driver remembers one bank for both, so a die keeps a bank of its own that was written
earlier when the driver goes over to it without a change of the bank.
-/
namespace NorFlash

section Routing

/-- The die that a call selects, if it selects one. -/
def BusCall.selects? : BusCall → Option Bool
  | selectUpper upper => some upper
  | _ => none

/-- The calls that reach a die, with the die that is selected at first. -/
def routedTo (die : Bool) : (selected : Bool) → List BusCall → List BusCall
  | _, [] => []
  | selected, call :: calls =>
    match call.selects? with
    | some upper => routedTo die upper calls
    | none =>
      if selected = die then call :: routedTo die selected calls else routedTo die selected calls

/-- None of the calls selects a die. -/
def Steady (calls : List BusCall) : Prop :=
  ∀ call ∈ calls, call.selects? = none

theorem routedTo_append {calls : List BusCall} (h : Steady calls) (die selected : Bool)
    (more : List BusCall) :
    routedTo die selected (calls ++ more) =
      (if selected = die then calls else []) ++ routedTo die selected more := by
  induction calls with
  | nil => split <;> rfl
  | cons call calls ih =>
    have hrest := ih fun call hcall => h call (List.mem_cons_of_mem _ hcall)
    rw [List.cons_append, routedTo, h call List.mem_cons_self]
    dsimp only
    by_cases hdie : selected = die
    · rw [if_pos hdie] at hrest ⊢
      rw [if_pos hdie, hrest]
      rfl
    · rw [if_neg hdie] at hrest ⊢
      rw [if_neg hdie, hrest]

variable {flagged : Bool} {calls : List BusCall} {failure : Option Error}

theorem Unrouted.append {phases phases' : List Phase} (h : Unrouted phases)
    (h' : Unrouted phases') : Unrouted (phases ++ phases') :=
  fun upper hmem => (List.mem_append.mp hmem).elim (h upper) (h' upper)

theorem Performed.steady {phases : List Phase} (h : Performed flagged phases calls failure)
    (hphases : Unrouted phases) : Steady calls :=
  h.forall_calls (fun _ _ _ => rfl) (fun _ => rfl) rfl (fun _ _ _ _ _ => rfl)
    fun upper hmem => absurd hmem (hphases upper)

theorem Phase.unrouted_selectBank (g : Geometry) (state : DriverState) (address : Nat) :
    Unrouted (selectBank g state address) := by
  unfold selectBank
  split
  · simp [Unrouted]
  · split
    · simp [Unrouted]
    · exact unrouted_write _ _ _

theorem Call.unrouted_commands (call : Call) (g : Geometry) (settings : FlashSettings)
    (piece : Piece) : Unrouted (call.commands g settings piece) := by
  cases call with
  | read offset length => simp [Unrouted, commands, Piece.readCommands, Phase.receive]
  | program offset data => exact Phase.unrouted_write _ _ _
  | erase offset length => exact Phase.unrouted_write _ _ _

end Routing

section Banks

/-- The banks of the dies with another one for a die. -/
def setBank (banks : Bool → Nat) (die : Bool) (bank : Nat) : Bool → Nat :=
  fun other => if other = die then bank else banks other

variable (g : Geometry)

/-- The pieces that lie on a die, by their addresses on it. -/
def onDie (die : Bool) (pieces : List Piece) : List Piece :=
  (pieces.filter fun piece => (g.locate piece.position).upper = die).map fun piece =>
    ⟨(g.locate piece.position).address, piece.length⟩

/-- What the commands for pieces reach, each on its die, when the driver has selected the bank
`last` and the registers of the dies hold `banks`. -/
def reachedOnDies (last : Nat) (banks : Bool → Nat) : List Piece → List (Bool × Piece)
  | [] => []
  | piece :: pieces =>
    let place := g.locate piece.position
    let bank := g.bankOf place.address
    let held := if bank = last then banks place.upper else bank
    (place.upper, ⟨held * Geometry.bankSize + place.address % Geometry.bankSize, piece.length⟩) ::
      reachedOnDies bank (setBank banks place.upper held) pieces

/-- Whenever the bank stays the same from one piece to the next, the register of the die of the
next one holds it already. -/
def BanksAgree (last : Nat) (banks : Bool → Nat) : List Piece → Prop
  | [] => True
  | piece :: pieces =>
    let place := g.locate piece.position
    let bank := g.bankOf place.address
    (bank = last → banks place.upper = bank) ∧
      BanksAgree bank (setBank banks place.upper bank) pieces

/-- What is reached on a die, in order. -/
def reachedOn (die : Bool) (reached : List (Bool × Piece)) : List Piece :=
  (reached.filter fun entry => entry.1 = die).map Prod.snd

theorem reachedOn_cons (die upper : Bool) (piece : Piece) (reached : List (Bool × Piece)) :
    reachedOn die ((upper, piece) :: reached) =
      if upper = die then piece :: reachedOn die reached else reachedOn die reached := by
  by_cases hdie : upper = die
  · simp [reachedOn, hdie]
  · simp [reachedOn, hdie]

variable {g}

theorem onDie_cons (die : Bool) (piece : Piece) (pieces : List Piece) :
    onDie g die (piece :: pieces) =
      if (g.locate piece.position).upper = die then
        ⟨(g.locate piece.position).address, piece.length⟩ :: onDie g die pieces
      else onDie g die pieces := by
  by_cases hdie : (g.locate piece.position).upper = die
  · simp [onDie, hdie]
  · simp [onDie, hdie]

/-- The dies agree in all that they have exactly when they agree in the first piece, which is on
one of them, and in the others. -/
theorem forall_die_cons_iff (upper : Bool) (first first' : Piece)
    (rest rest' : Bool → List Piece) :
    (∀ die, (if upper = die then first :: rest die else rest die) =
      if upper = die then first' :: rest' die else rest' die) ↔
      first = first' ∧ ∀ die, rest die = rest' die := by
  constructor
  · intro h
    have hupper := h upper
    rw [if_pos rfl, if_pos rfl] at hupper
    obtain ⟨hfirst, hrest⟩ := List.cons.inj hupper
    refine ⟨hfirst, fun die => ?_⟩
    by_cases hdie : upper = die
    · rwa [← hdie]
    · have hother := h die
      rwa [if_neg hdie, if_neg hdie] at hother
  · rintro ⟨rfl, hrest⟩ die
    rw [hrest die]

/-- Every piece is reached where it lies exactly when the banks agree. -/
theorem reachedOn_eq_onDie_iff (hg : g.InSeries) (last : Nat) (banks : Bool → Nat)
    (pieces : List Piece) :
    (∀ die, reachedOn die (reachedOnDies g last banks pieces) = onDie g die pieces) ↔
      BanksAgree g last banks pieces := by
  induction pieces generalizing last banks with
  | nil => simp [reachedOn, reachedOnDies, onDie, BanksAgree]
  | cons piece pieces ih =>
    let place := g.locate piece.position
    let bank := g.bankOf place.address
    let held := if bank = last then banks place.upper else bank
    let first : Piece :=
      ⟨held * Geometry.bankSize + place.address % Geometry.bankSize, piece.length⟩
    have hheld : (bank = last → banks place.upper = bank) ↔ held = bank := by
      by_cases hsame : bank = last
      · simp [held, hsame]
      · simp [held, hsame]
    have hfirst : first = ⟨place.address, piece.length⟩ ↔ held = bank := by
      have hbank : bank = place.address / 0x1000000 := hg.bankOf_eq place.address
      simp only [first, Piece.mk.injEq, and_true, Geometry.bankSize]
      omega
    have hsplit : (∀ die, reachedOn die (reachedOnDies g last banks (piece :: pieces)) =
        onDie g die (piece :: pieces)) ↔ held = bank ∧ ∀ die,
          reachedOn die (reachedOnDies g bank (setBank banks place.upper held) pieces) =
            onDie g die pieces := by
      rw [← hfirst, ← forall_die_cons_iff place.upper]
      refine forall_congr' fun die => ?_
      rw [reachedOnDies, reachedOn_cons, onDie_cons]
    rw [hsplit, BanksAgree]
    change _ ↔ (bank = last → banks place.upper = bank) ∧ _
    rw [hheld]
    refine and_congr_right fun hagree => ?_
    rw [hagree]
    exact ih _ _

end Banks

section Hearing

variable {g : Geometry} {state final : DriverState} {flagged : Bool} {pieces : List Piece}
  {calls : List BusCall}

/-- Commands for a piece, to the die and the bank that are selected. -/
structure Serves (g : Geometry) (piece : Piece) (phases : List Phase) : Prop where
  unrouted : Unrouted phases
  hears (reached : Nat) : Listener.HearsAt g phases piece reached

/-- Listeners of the two dies, each of which knows the bank of its die, and a driver that knows
the bank it has written last. -/
structure Attends (state : DriverState) (last : Nat) (banks : Bool → Nat)
    (listeners : Bool → Listener) : Prop where
  inUse : ∃ register, state.bank = some register ∧
    (register.writeCommand = .writeBank ∨ register.writeCommand = .writeExtendedAddress) ∧
    register.current.toNat = last
  bank (die : Bool) : (listeners die).bank.toNat = banks die
  lower (die : Bool) : (listeners die).upper = false

/-- A visit and the commands for its piece, as the listener of the die takes them in. -/
theorem Attends.visit {last : Nat} {banks : Bool → Nat} {listeners : Bool → Listener}
    (h : Attends state last banks listeners) (hg : g.InSeries) (hwidth : g.width = .three)
    {piece : Piece} (hin : piece.position < g.size) {phases : List Phase}
    (hserves : Serves g piece phases) :
    let place := g.locate piece.position
    let bank := g.bankOf place.address
    let held := if bank = last then banks place.upper else bank
    let reached : Piece :=
      ⟨held * Geometry.bankSize + place.address % Geometry.bankSize, piece.length⟩
    ∃ after : Listener, (Phase.selectBank g state place.address ++ phases).foldl
        (Listener.hearPhase g) (listeners place.upper) = after ∧
      after.pieces = (listeners place.upper).pieces ++ [reached] ∧
      Attends (.visited g state piece.position) bank (setBank banks place.upper held)
        fun die => if die = place.upper then after else listeners die := by
  intro place bank held reached
  obtain ⟨register, hregister, hwrites, hcurrent⟩ := h.inUse
  have hlt : place.address < UInt32.size :=
    Nat.lt_of_le_of_lt (hg.address_le piece.position) (Nat.lt_trans hin hg.size_lt)
  have hbyte : bank < UInt8.size := by
    have hbank : bank = place.address / 0x1000000 := hg.bankOf_eq place.address
    unfold UInt32.size at hlt
    unfold UInt8.size
    omega
  obtain ⟨command, hselect⟩ :=
    (listeners place.upper).foldl_selectBank (g := g) hregister hwrites place.address
  generalize hvalue : (if g.bankOf place.address = register.current.toNat
    then (listeners place.upper).bank else .ofNat (g.bankOf place.address)) = value at hselect
  have hheld : value.toNat = held := by
    rw [← hvalue, hcurrent, apply_ite UInt8.toNat, h.bank, UInt8.toNat_ofNat_of_lt' hbyte]
  have hafter : (Phase.selectBank g state place.address ++ phases).foldl (Listener.hearPhase g)
      (listeners place.upper) =
        { listeners place.upper with
          bank := value
          command := []
          pieces := (listeners place.upper).pieces ++ [reached] } := by
    rw [List.foldl_append, hselect]
    refine hserves.hears reached.position _ fun opcode rest => ?_
    rw [Listener.position_three _ hwidth hlt, h.lower, hheld]
    exact Nat.zero_add _
  refine ⟨_, rfl, by rw [hafter], ?_, fun die => ?_, fun die => ?_⟩
  · refine ⟨{ register with current := .ofNat bank }, ?_, hwrites,
      UInt8.toNat_ofNat_of_lt' hbyte⟩
    unfold DriverState.visited DriverState.banked
    dsimp only
    rw [hregister]
    rfl
  · unfold setBank
    split
    · rw [hafter]
      exact hheld
    · exact h.bank die
  · split
    · rw [hafter]
      exact h.lower place.upper
    · exact h.lower die

/-- What the dies hear of visits, each of the calls that are routed to it. -/
theorem Visits.heard_onDies (h : Visits flagged g (Serves g) state pieces calls final)
    (hg : g.InSeries) (hstacked : g.wiring = .stacked) (hwidth : g.width = .three)
    (hin : ∀ piece ∈ pieces, piece.position < g.size)
    {last : Nat} {banks : Bool → Nat} {listeners : Bool → Listener}
    (hattends : Attends state last banks listeners) (selected die : Bool) :
    ((listeners die).heard g (routedTo die selected calls)).pieces =
      (listeners die).pieces ++ reachedOn die (reachedOnDies g last banks pieces) := by
  induction h generalizing last banks listeners selected with
  | nil state => exact (List.append_nil _).symm
  | @cons state final piece pieces phases calls more fits performed rest ih =>
    let place := g.locate piece.position
    obtain ⟨after, hafter, hpieces, hnext⟩ :=
      hattends.visit hg hwidth (hin piece List.mem_cons_self) fits
    have hvisit : Phase.visit g state piece.position ++ phases =
        .selectUpper place.upper :: (Phase.selectBank g state place.address ++ phases) := by
      unfold Phase.visit
      dsimp only
      rw [if_pos hstacked]
      rfl
    rw [hvisit] at performed
    cases performed with
    | @carried _ _ first commands _ run performed =>
      cases run
      have hsteady : Steady commands :=
        performed.steady ((Phase.unrouted_selectBank g state place.address).append fits.unrouted)
      have hrouted : routedTo die selected ([.selectUpper place.upper] ++ commands ++ more) =
          (if place.upper = die then commands else []) ++ routedTo die place.upper more :=
        routedTo_append hsteady die place.upper more
      have hrest := ih (fun piece h => hin piece (List.mem_cons_of_mem _ h)) hnext place.upper
      rw [hrouted, Listener.heard_append, reachedOnDies, reachedOn_cons]
      by_cases hdie : place.upper = die
      · subst hdie
        have hheard : (listeners place.upper).heard g commands = after := by
          rw [performed.heard, hafter]
        rw [if_pos rfl] at hrest
        rw [if_pos rfl, if_pos rfl, hheard, hrest, hpieces, List.append_assoc]
        rfl
      · rw [if_neg fun h => hdie h.symm] at hrest
        rw [if_neg hdie, if_neg hdie]
        exact hrest

end Hearing

section Requests

variable {β : Type} [SpiBus β] {g : Geometry} {d d' : Driver β} {pieces : List Piece}
  {calls : List BusCall}

/-- Requests that go through one after the other, with their pieces and the calls they make. -/
inductive Fulfilled (g : Geometry) : Driver β → List Piece → List BusCall → Driver β → Prop where
  | nil (d : Driver β) : Fulfilled g d [] [] d
  | cons {d d' d'' : Driver β} {call : Call} {pieces : List Piece} {calls : List BusCall}
    (succeeds : call.Succeeds d d') (rest : Fulfilled g d' pieces calls d'') :
    Fulfilled g d (call.pieces g (SpiBus.maxWrite d.bus) ++ pieces) (call.callsOn d ++ calls) d''

theorem Fulfilled.visits (h : Fulfilled g d pieces calls d') (hlayout : d.state.layout? = some g)
    (herases : g.eraseCommand = .eraseSmallSector ∨ g.eraseCommand = .eraseSector) :
    Visits g.useFlagStatus g (Serves g) d.state pieces calls d'.state ∧
      ∀ piece ∈ pieces, piece.position < g.size := by
  induction h with
  | nil d => exact ⟨.nil d.state, fun piece hpiece => by cases hpiece⟩
  | @cons d d' d'' call pieces calls succeeds rest ih =>
    obtain ⟨g', hlayout', haccepted, hvisits⟩ := succeeds.visits
    obtain rfl : g = g' := Option.some.inj (hlayout.symm.trans hlayout')
    obtain ⟨hrest, hin⟩ := ih (hvisits.layout_eq.trans hlayout)
    refine ⟨(hvisits.imp fun piece hpiece phases hphases => ?_).append hrest, ?_⟩
    · rw [hphases]
      exact ⟨call.unrouted_commands g _ piece,
        Call.hears_commands haccepted herases _ hpiece⟩
    · intro piece hpiece
      rcases List.mem_append.mp hpiece with hfirst | hrest
      · have hinside := Call.inside_of_mem_pieces haccepted hfirst
        omega
      · exact hin piece hrest

/-- Reads of single bytes all go through on a bus that goes along with the driver. -/
theorem exists_fulfilled (hlayout : d.state.layout? = some g)
    (hobliging : Obliging d.state.settings g.useFlagStatus d.bus) (positions : List Nat)
    (hin : ∀ position ∈ positions, position < g.size) :
    ∃ calls d', Fulfilled g d (positions.map fun position => ⟨position, 1⟩) calls d' := by
  induction positions generalizing d with
  | nil => exact ⟨[], d, .nil d⟩
  | cons position positions ih =>
    have hfirst := hin position List.mem_cons_self
    have haccepted : (Call.read position 1).objection? g d.state.lockCheck = none := by
      rw [Call.objection?, if_neg (by omega)]
    obtain ⟨bytes, d', hread, hall⟩ := Driver.read_of_obliging hlayout hobliging haccepted
    have hsucceeds : (Call.read position 1).Succeeds d d' := ⟨bytes, hread, hall⟩
    obtain ⟨g', -, -, hvisits⟩ := hsucceeds.visits
    have hobliging' : Obliging d'.state.settings g.useFlagStatus d'.bus := by
      rw [hvisits.same.2.2]
      exact hobliging.after hsucceeds.replays
    obtain ⟨calls, d'', hrest⟩ := ih (hvisits.layout_eq.trans hlayout) hobliging'
      fun position h => hin position (List.mem_cons_of_mem _ h)
    have hpieces : (Call.read position 1).pieces g (SpiBus.maxWrite d.bus) = [⟨position, 1⟩] :=
      Piece.tile_of_le Nat.one_ne_zero (Nat.le_max_left 1 _)
    have hfulfilled := hrest.cons hsucceeds
    rw [hpieces] at hfulfilled
    exact ⟨_, d'', hfulfilled⟩

end Requests

/-- Stacked dies of the parts of the table are each half of the whole. -/
theorem Part.table_stacked :
    Part.table.all (fun part =>
      decide ((Geometry.derive part { wiring := .stacked }).size = 2 * part.size)) = true := by
  decide +kernel

theorem Geometry.size_stacked {part : Part} (hpart : part ∈ Part.table)
    {settings : FlashSettings} (hstacked : settings.wiring = .stacked) :
    (derive part settings).size = 2 * part.size := by
  have hsize : (derive part settings).size = (derive part { wiring := settings.wiring }).size := rfl
  rw [hsize, hstacked]
  exact of_decide_eq_true (List.all_eq_true.mp Part.table_stacked part hpart)

/-- A driver of stacked dies of more than 16 MiB each, whose bank registers are at zero. -/
structure Doubled {β : Type} (g : Geometry) (current : UInt8) (d : Driver β) : Prop where
  layout : d.state.layout? = some g
  erases : g.eraseCommand = .eraseSmallSector ∨ g.eraseCommand = .eraseSector
  series : g.InSeries
  wiring : g.wiring = .stacked
  width : g.width = .three
  size_eq : g.size = 2 * g.part.size
  selected : d.currentBank? = some current
  attends : Attends d.state current.toNat (fun _ => 0) fun _ => { upper := false, bank := 0 }

theorem doubled_of_scan {β : Type} [SpiBus β] {d₀ d : Driver β} {g : Geometry}
    (hscan : Driver.scan d₀ = .ok g d) (hstacked : d₀.state.settings.wiring = .stacked)
    (haddressing : d₀.state.settings.addressing = .bankRegister)
    (hlarge : Geometry.bankSize < g.part.size) : ∃ current, Doubled g current d := by
  obtain ⟨part, hpart, rfl, hsettings, hidentified⟩ := Driver.identified_of_scan hscan
  have hhalf : Geometry.bankSize < part.size := hlarge
  have hsize : (Geometry.derive part d₀.state.settings).size = 2 * part.size :=
    Geometry.size_stacked hpart hstacked
  have hlayout := hidentified.layout
  have hregister := hidentified.register
  rw [hsettings] at hlayout hregister
  obtain ⟨current, hregister⟩ := hregister haddressing (by omega)
  refine ⟨current, hlayout, Geometry.erases_derive, Geometry.inSeries_derive ?_, hstacked, ?_,
    hsize, ?_, ⟨_, hregister, Driver.bankCommands_writes part, rfl⟩, fun _ => rfl, fun _ => rfl⟩
  · rw [hstacked]
    decide
  · simp [Geometry.derive, haddressing]
  · rw [Driver.currentBank?, hregister]
    rfl

section Doubled

variable {β : Type} [SpiBus β] {g : Geometry} {current : UInt8} {d : Driver β}
  (h : Doubled g current d)
include h

/-- What each of the dies hears of requests that go through. -/
theorem Doubled.heard {pieces : List Piece} {calls : List BusCall} {d' : Driver β}
    (hfulfilled : Fulfilled g d pieces calls d') (selected die : Bool) :
    (Listener.heard g { upper := false, bank := 0 } (routedTo die selected calls)).pieces =
      reachedOn die (reachedOnDies g current.toNat (fun _ => 0) pieces) := by
  obtain ⟨hvisits, hin⟩ := hfulfilled.visits h.layout h.erases
  rw [hvisits.heard_onDies h.series h.wiring h.width hin h.attends selected die]
  rfl

omit [SpiBus β] in
/-- The second bank of the lower die, and then that of the upper one. -/
theorem Doubled.not_banksAgree (hlarge : Geometry.bankSize < g.part.size) :
    ¬ BanksAgree g current.toNat (fun _ => 0)
      [⟨Geometry.bankSize, 1⟩, ⟨g.part.size + Geometry.bankSize, 1⟩] := by
  have hsize := h.size_eq
  have hlower : g.locate Geometry.bankSize = ⟨false, Geometry.bankSize⟩ := by
    unfold Geometry.locate
    rw [h.wiring]
    exact if_neg (by omega)
  have hupper : g.locate (g.part.size + Geometry.bankSize) = ⟨true, Geometry.bankSize⟩ := by
    unfold Geometry.locate
    rw [h.wiring]
    dsimp only
    rw [if_pos (by omega), hsize, Nat.mul_div_cancel_left _ (by decide), Nat.add_sub_cancel_left]
  have hbank : g.bankOf Geometry.bankSize = 1 := h.series.bankOf_eq Geometry.bankSize
  rintro ⟨-, hsecond, -⟩
  dsimp only at hsecond
  rw [hlower, hupper] at hsecond
  have hkept : (0 : Nat) = g.bankOf Geometry.bankSize := hsecond rfl
  rw [hbank] at hkept
  cases hkept

end Doubled

open Driver in
/-- Stacked dies of more than 16 MiB each, after a scan and with the register of each die at zero.
In a run of requests that go through, every array command reaches the place it is meant for on its
die exactly when the register of the die holds the bank already whenever the driver leaves out the
bank write. There are runs for which it does not, on every bus that goes along with the driver. -/
theorem stacked_dies_reached_iff {β : Type} [SpiBus β] {d₀ d : Driver β} {g : Geometry}
    (hscan : scan d₀ = .ok g d) (hstacked : d₀.state.settings.wiring = .stacked)
    (haddressing : d₀.state.settings.addressing = .bankRegister)
    (hlarge : Geometry.bankSize < g.part.size) :
    ∃ current, d.currentBank? = some current ∧
      (∀ pieces calls d', Fulfilled g d pieces calls d' → ∀ selected,
        ((∀ die, (Listener.heard g { upper := false, bank := 0 }
            (routedTo die selected calls)).pieces = onDie g die pieces) ↔
          BanksAgree g current.toNat (fun _ => 0) pieces)) ∧
      (Obliging d.state.settings g.useFlagStatus d.bus →
        ∃ pieces calls d', Fulfilled g d pieces calls d' ∧
          ¬ BanksAgree g current.toNat (fun _ => 0) pieces) := by
  obtain ⟨current, hdoubled⟩ := doubled_of_scan hscan hstacked haddressing hlarge
  refine ⟨current, hdoubled.selected, fun pieces calls d' h selected => ?_, fun hobliging => ?_⟩
  · rw [← reachedOn_eq_onDie_iff hdoubled.series]
    refine forall_congr' fun die => ?_
    rw [hdoubled.heard h selected die]
  · have hsize := hdoubled.size_eq
    obtain ⟨calls, d', hfulfilled⟩ := exists_fulfilled hdoubled.layout hobliging
      [Geometry.bankSize, g.part.size + Geometry.bankSize] (by
        intro position hposition
        simp only [List.mem_cons, List.not_mem_nil, or_false] at hposition
        omega)
    exact ⟨_, calls, d', hfulfilled, hdoubled.not_banksAgree hlarge⟩

/-- A bus that answers the ID of a part to everything. Its first byte is also what a ready part
gives as its registers. -/
structure EchoBus where

namespace EchoBus

def answer : ByteArray :=
  Bytes.ofList [0xc2, 0x20, 0x19, 0, 0, 0]

instance : SpiBus EchoBus where
  transfer _ bus := .ok answer bus
  maxWrite _ := none
  release bus := bus
  selectUpper _ bus := bus
  delay _ bus := bus

theorem obliging (bus : EchoBus) {settings : FlashSettings} (flagged : Bool)
    (hprogram : 0 < Poll.attempts settings.programTimeout)
    (herase : 0 < Poll.attempts settings.eraseTimeout) : Obliging settings flagged bus :=
  obliging_of_answer answer (fun _ _ => ⟨_, rfl⟩) rfl bus hprogram herase

/-- Two stacked dies that have not been scanned yet. -/
def dies : Driver EchoBus :=
  .create {} { wiring := .stacked }

/-- Their layout, of two banks on each die. -/
def layout : Geometry :=
  .derive Part.macronixParts[7] dies.state.settings

theorem dies_scanned : ∃ d, Driver.scan dies = .ok layout d ∧
    d.state.settings = dies.state.settings ∧ d.currentBank? = some 0xc2 := by
  have hscan : (match Driver.scan dies with
      | .ok g d => decide (g = layout ∧ d.state.settings = dies.state.settings ∧
          d.currentBank? = some 0xc2)
      | .error _ _ => false) = true := by decide +kernel
  split at hscan
  case h_1 g d heq =>
    obtain ⟨rfl, hsettings, hbank⟩ := of_decide_eq_true hscan
    exact ⟨d, heq, hsettings, hbank⟩
  case h_2 => cases hscan

end EchoBus

open EchoBus in
/-- The bus goes along with the driver, so there are such runs. -/
theorem stacked_dies_reached_iff_echoBus :
    ∃ d current pieces calls d', Driver.scan dies = .ok layout d ∧
      dies.state.settings.wiring = .stacked ∧
      dies.state.settings.addressing = .bankRegister ∧
      Geometry.bankSize < layout.part.size ∧ d.currentBank? = some current ∧
      Fulfilled layout d pieces calls d' ∧
      ¬ ∀ die, (Listener.heard layout { upper := false, bank := 0 }
        (routedTo die false calls)).pieces = onDie layout die pieces := by
  obtain ⟨d, hscan, hsettings, -⟩ := dies_scanned
  have hlarge : Geometry.bankSize < layout.part.size := by decide +kernel
  obtain ⟨current, hcurrent, hreached, hruns⟩ := stacked_dies_reached_iff hscan rfl rfl hlarge
  have hobliging : Obliging d.state.settings layout.useFlagStatus d.bus := by
    rw [hsettings]
    exact obliging d.bus _ (by decide) (by decide)
  obtain ⟨pieces, calls, d', hfulfilled, hdisagree⟩ := hruns hobliging
  refine ⟨d, current, pieces, calls, d', hscan, rfl, rfl, hlarge, hcurrent, hfulfilled, ?_⟩
  rwa [hreached pieces calls d' hfulfilled false]

open EchoBus in
/-- Two reads of a byte each, of the second bank of the lower die and of that of the upper one.
The upper die reads the first byte of its first bank. -/
theorem upper_die_reads_first_bank_echoBus :
    ∃ d calls d', Driver.scan dies = .ok layout d ∧
      Fulfilled layout d [⟨0x1000000, 1⟩, ⟨0x3000000, 1⟩] calls d' ∧
      (Listener.heard layout { upper := false, bank := 0 } (routedTo true false calls)).pieces =
        [⟨0, 1⟩] ∧
      onDie layout true [⟨0x1000000, 1⟩, ⟨0x3000000, 1⟩] = [⟨0x1000000, 1⟩] := by
  obtain ⟨d, hscan, hsettings, hbank⟩ := dies_scanned
  have hlarge : Geometry.bankSize < layout.part.size := by decide +kernel
  obtain ⟨current, hdoubled⟩ := doubled_of_scan hscan rfl rfl hlarge
  have hobliging : Obliging d.state.settings layout.useFlagStatus d.bus := by
    rw [hsettings]
    exact obliging d.bus _ (by decide) (by decide)
  obtain ⟨calls, d', hfulfilled⟩ := exists_fulfilled hdoubled.layout hobliging
    [0x1000000, 0x3000000] (by decide +kernel)
  obtain rfl : current = 0xc2 := Option.some.inj (hdoubled.selected.symm.trans hbank)
  refine ⟨d, calls, d', hscan, hfulfilled, ?_, by decide +kernel⟩
  exact (hdoubled.heard hfulfilled false true).trans (by decide +kernel)

end NorFlash
