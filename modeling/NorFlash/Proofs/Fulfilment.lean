import NorFlash.Proofs.Tiling

/-!
Requests that go through: erases and programs that succeed, and reads that give all of their bytes,
on any bus. Such a request has visited all of its pieces in order and carried out the commands of
each, and the state of the driver after it is the one that the visits lead to.
-/
namespace NorFlash

section Replays

variable {β : Type} [SpiBus β] {bus bus' bus'' : β} {calls more : List BusCall}

theorem Replays.trans (h : Replays bus calls bus') (h' : Replays bus' more bus'') :
    Replays bus (calls ++ more) bus'' := by
  induction h' with
  | start =>
    rw [List.append_nil]
    exact h
  | next before answered ih =>
    rw [← List.append_assoc]
    exact ih.next answered

/-- A bus that goes along with the driver goes on to do so. -/
theorem Obliging.after {settings : FlashSettings} {flagged : Bool}
    (h : Obliging settings flagged bus) (hreplays : Replays bus calls bus') :
    Obliging settings flagged bus' := by
  intro more bus'' hmore
  obtain ⟨huntroubled, hwait⟩ := h _ _ (hreplays.trans hmore)
  refine ⟨fun call hcall => huntroubled call (List.mem_append_right _ hcall), ?_⟩
  rintro before polls rfl
  exact hwait (calls ++ before) polls (List.append_assoc ..).symm

end Replays

/-- A visit changes the die and the bank, and nothing else of what is known of the part. -/
theorem DriverState.Identified.visited {part : Part} {state : DriverState}
    (h : state.Identified part) (g : Geometry) (position : Nat) :
    (DriverState.visited g state position).Identified part where
  layout := h.layout
  register haddressing hlarge := by
    obtain ⟨current, hregister⟩ := h.register haddressing hlarge
    refine ⟨.ofNat (g.bankOf (g.locate position).address), ?_⟩
    unfold DriverState.visited banked
    dsimp only
    rw [hregister]
    rfl
  unused hunused := by
    unfold DriverState.visited banked
    dsimp only
    rw [h.unused hunused]
    rfl

/-- Pieces visited one after the other, each with commands of some kind, all of them carried
out. -/
inductive Visits (flagged : Bool) (g : Geometry) (kind : Piece → List Phase → Prop) :
    DriverState → List Piece → List BusCall → DriverState → Prop where
  | nil (state : DriverState) : Visits flagged g kind state [] [] state
  | cons {state final : DriverState} {piece : Piece} {pieces : List Piece} {phases : List Phase}
    {calls more : List BusCall} (fits : kind piece phases)
    (performed : Performed flagged (Phase.visit g state piece.position ++ phases) calls none)
    (rest : Visits flagged g kind (.visited g state piece.position) pieces more final) :
    Visits flagged g kind state (piece :: pieces) (calls ++ more) final

namespace Visits

variable {flagged : Bool} {g : Geometry} {kind kind' : Piece → List Phase → Prop}
  {state middle final : DriverState} {pieces pieces' : List Piece} {calls calls' : List BusCall}

theorem imp (h : Visits flagged g kind state pieces calls final)
    (himp : ∀ piece ∈ pieces, ∀ phases, kind piece phases → kind' piece phases) :
    Visits flagged g kind' state pieces calls final := by
  induction h with
  | nil state => exact .nil state
  | cons fits performed rest ih =>
    exact .cons (himp _ List.mem_cons_self _ fits) performed
      (ih fun piece h => himp piece (List.mem_cons_of_mem _ h))

theorem append (h : Visits flagged g kind state pieces calls middle)
    (h' : Visits flagged g kind middle pieces' calls' final) :
    Visits flagged g kind state (pieces ++ pieces') (calls ++ calls') final := by
  induction h with
  | nil state => exact h'
  | cons fits performed rest ih =>
    rw [List.append_assoc]
    exact .cons fits performed (ih h')

theorem identified {part : Part} (h : Visits flagged g kind state pieces calls final)
    (hidentified : state.Identified part) : final.Identified part := by
  induction h with
  | nil state => exact hidentified
  | cons fits performed rest ih => exact ih (hidentified.visited g _)

/-- Visits change neither the layout nor the settings. -/
theorem same (h : Visits flagged g kind state pieces calls final) :
    final.lifecycle = state.lifecycle ∧ final.geometry = state.geometry ∧
      final.settings = state.settings := by
  induction h with
  | nil state => exact ⟨rfl, rfl, rfl⟩
  | cons fits performed rest ih => exact ih

theorem layout_eq (h : Visits flagged g kind state pieces calls final) :
    final.layout? = state.layout? := by
  obtain ⟨hlifecycle, hgeometry, -⟩ := h.same
  rw [DriverState.layout?, hlifecycle, hgeometry, DriverState.layout?]

end Visits

namespace Driver

section Checks

variable {β : Type} {d d' : Driver β} {g : Geometry} {offset length : Nat}

theorem layout_of_requireReady (h : requireReady d = .ok g d') :
    d.state.layout? = some g ∧ d' = d := by
  cases hlayout : d.state.layout? with
  | none =>
    rw [requireReady_of_none hlayout] at h
    cases h
  | some g' =>
    rw [requireReady_of_layout hlayout] at h
    cases h
    exact ⟨rfl, rfl⟩

theorem inside_of_requireInside (h : requireInside g offset length d = .ok () d') :
    offset + length ≤ g.size ∧ d' = d := by
  by_cases hin : offset + length ≤ g.size
  · rw [requireInside_of_le d hin] at h
    cases h
    exact ⟨hin, rfl⟩
  · rw [requireInside_of_lt d (Nat.lt_of_not_le hin)] at h
    cases h

theorem same_of_requireUnlocked (h : requireUnlocked offset length d = .ok () d') : d' = d := by
  obtain ⟨state, d₁, hget, hcheck⟩ := ok_of_bind h
  cases hget
  split at hcheck
  · cases hcheck
  · cases hcheck
    rfl

variable [SpiBus β]

/-- An erase that succeeds has been aligned and inside of the part, and has erased its pieces. -/
theorem pieces_of_erase (h : erase offset length d = .ok () d') :
    ∃ g, d.state.layout? = some g ∧ (Call.erase offset length).objection? g none = none ∧
      (Piece.tile (fun _ => g.eraseSize) offset length).forM (erasePiece g) d = .ok () d' := by
  obtain ⟨g, d₁, hready, hready'⟩ := ok_of_bind h
  obtain ⟨hlayout, rfl⟩ := layout_of_requireReady hready
  refine ⟨g, hlayout, ?_⟩
  dsimp only at hready'
  split at hready'
  case isTrue hmisaligned => cases hready'
  case isFalse haligned =>
    obtain ⟨_, d₂, hinside, hinside'⟩ := ok_of_bind hready'
    obtain ⟨hin, rfl⟩ := inside_of_requireInside hinside
    obtain ⟨_, d₃, hunlocked, hpieces⟩ := ok_of_bind hinside'
    rw [same_of_requireUnlocked hunlocked, erasePieces_eq_forM] at hpieces
    refine ⟨?_, hpieces⟩
    rw [Call.objection?, if_neg haligned, if_neg (Nat.not_lt.mpr hin)]
    rfl

/-- A program that succeeds has been inside of the part, and has programmed its pieces. -/
theorem pieces_of_program {data : ByteArray} (h : program offset data d = .ok () d') :
    ∃ g, d.state.layout? = some g ∧ (Call.program offset data).objection? g none = none ∧
      (Piece.tile (g.programLimit (SpiBus.maxWrite d.bus)) offset data.size).forM
        (programPiece g offset data) d = .ok () d' := by
  obtain ⟨g, d₁, hready, hready'⟩ := ok_of_bind h
  obtain ⟨hlayout, rfl⟩ := layout_of_requireReady hready
  obtain ⟨_, d₂, hinside, hinside'⟩ := ok_of_bind hready'
  obtain ⟨hin, rfl⟩ := inside_of_requireInside hinside
  obtain ⟨_, d₃, hunlocked, hunlocked'⟩ := ok_of_bind hinside'
  obtain rfl := same_of_requireUnlocked hunlocked
  obtain ⟨limit, d₄, hlimit, hpieces⟩ := ok_of_bind hunlocked'
  cases hlimit
  refine ⟨g, hlayout, ?_, ?_⟩
  · rw [Call.objection?, if_neg (Nat.not_lt.mpr hin)]
    rfl
  split at hpieces
  case isTrue hnothing =>
    -- commands without payload only end when one of them fails
    have hfails (attempts : Nat) (d : Driver β) :
        programNothing g offset attempts d ≠ .ok () d' := by
      induction attempts generalizing d with
      | zero => exact fun h => by cases h
      | succ attempts ih =>
        intro h
        obtain ⟨_, d₅, -, hrest⟩ := ok_of_bind h
        exact ih d₅ hrest
    exact absurd hpieces (hfails patience _)
  case isFalse => rwa [← programPieces_eq_forM]

theorem pieces_of_read {bytes : ByteArray} (h : read offset length d = .ok bytes d') :
    ∃ g, d.state.layout? = some g ∧ (Call.read offset length).objection? g none = none ∧
      readPieces g (Piece.tile g.readLimit offset length) .empty d = .ok bytes d' := by
  obtain ⟨g, d₁, hready, hrest⟩ := ok_of_bind h
  obtain ⟨hlayout, rfl⟩ := layout_of_requireReady hready
  obtain ⟨_, d₂, hinside, hpieces⟩ := ok_of_bind hrest
  obtain ⟨hin, rfl⟩ := inside_of_requireInside hinside
  refine ⟨g, hlayout, ?_, hpieces⟩
  rw [Call.objection?, if_neg (Nat.not_lt.mpr hin)]

end Checks

/-- An operation that succeeds over a bus also does over the noted one, in the same state. -/
theorem traced_of_ok {β α : Type} [SpiBus β] {x : Action (Traced β) α} {y : Action β α}
    {d d' : Driver β} {value : α} (hxy : Simulates (Alike (Traced.Forgets d.bus)) x y)
    (h : y d = .ok value d') : x d.traced = .ok value ⟨⟨d'.bus, callsOf x d⟩, d'.state⟩ := by
  have hagree := agree_traced hxy
  rw [callsOf, h] at *
  generalize x d.traced = r at hagree
  cases hagree with
  | @ok _ traced _ states =>
    obtain ⟨⟨bus, calls⟩, state⟩ := traced
    obtain ⟨⟨rfl, -⟩, rfl⟩ := states
    rfl

section Pieces

variable {β : Type} {g : Geometry} {state : DriverState} {d' : Driver (Traced β)} {bus : β}
  {before : List BusCall} {flagged : Bool} {phases : List Phase} {after : DriverState} {α : Type}

theorem Carries.of_ok {x : Action (Traced β) α} {Q : List BusCall → α → Prop} {value : α}
    (h : Carries flagged state phases x after Q)
    (hok : x ⟨⟨bus, before⟩, state⟩ = .ok value d') :
    ∃ bus' calls, d' = ⟨⟨bus', before ++ calls⟩, after⟩ ∧ Performed flagged phases calls none ∧
      Q calls value := by
  have hend := h bus before
  rw [hok] at hend
  cases hend with
  | ok performed gives => exact ⟨_, _, rfl, performed, gives⟩

variable [SpiBus β] (hlayout : state.geometry = some g)
include hlayout

omit [SpiBus β] in
theorem visits_forM (commands : FlashSettings → Piece → List Phase)
    {step : Piece → Action (Traced β) Unit}
    (hstep : ∀ (state : DriverState) piece, state.geometry = some g →
      Carries g.useFlagStatus state
        (Phase.visit g state piece.position ++ commands state.settings piece)
        (step piece) (.visited g state piece.position) fun _ _ => True)
    {pieces : List Piece} (h : pieces.forM step ⟨⟨bus, before⟩, state⟩ = .ok () d') :
    ∃ calls, Visits g.useFlagStatus g (fun piece phases => phases = commands state.settings piece)
      state pieces calls d'.state ∧ d'.bus.calls = before ++ calls := by
  induction pieces generalizing state bus before with
  | nil =>
    cases h
    exact ⟨[], .nil state, (List.append_nil before).symm⟩
  | cons piece pieces ih =>
    obtain ⟨_, d₁, hpiece, hrest⟩ := ok_of_bind h
    obtain ⟨bus', calls, rfl, performed, -⟩ := (hstep state piece hlayout).of_ok hpiece
    have hvisited : (DriverState.visited g state piece.position).geometry = some g := hlayout
    obtain ⟨more, hvisits, hcalls⟩ := ih hvisited hrest
    refine ⟨calls ++ more, .cons rfl performed hvisits, ?_⟩
    rw [hcalls, List.append_assoc]

/-- A read that gives all of its bytes has stopped at none of its pieces. -/
theorem visits_readPieces {pieces : List Piece} (hpieces : ∀ piece ∈ pieces, piece.length ≠ 0)
    {done bytes : ByteArray}
    (h : readPieces g pieces done ⟨⟨bus, before⟩, state⟩ = .ok bytes d')
    (hall : bytes.size = done.size + Piece.total pieces) :
    ∃ calls, Visits g.useFlagStatus g (fun piece phases => phases = Piece.readCommands g piece)
      state pieces calls d'.state ∧ d'.bus.calls = before ++ calls := by
  induction pieces generalizing state done bus before with
  | nil =>
    cases h
    exact ⟨[], .nil state, (List.append_nil before).symm⟩
  | cons piece pieces ih =>
    have hfirst := hpieces piece List.mem_cons_self
    rw [Piece.total] at hall
    obtain ⟨outcome, d₁, hattempt, hrest⟩ := ok_of_bind h
    cases outcome with
    | error cause =>
      -- the read ends here with what it has read so far
      dsimp only at hrest
      split at hrest
      · cases hrest
      · cases hrest
        omega
    | ok answer =>
      obtain ⟨bus', calls, rfl, performed, hanswer⟩ :=
        (carries_readPiece hlayout piece).of_ok (ok_of_attempt hattempt)
      have hvisited : (DriverState.visited g state piece.position).geometry = some g := hlayout
      have hsize : bytes.size = (done ++ answer).size + Piece.total pieces := by
        rw [ByteArray.size_append, hanswer, Bytes.size_resize, hall, Nat.add_assoc]
      obtain ⟨more, hvisits, hcalls⟩ :=
        ih hvisited (fun piece h => hpieces piece (List.mem_cons_of_mem _ h)) hrest hsize
      refine ⟨calls ++ more, .cons rfl performed hvisits, ?_⟩
      rw [hcalls, List.append_assoc]

end Pieces

end Driver

namespace Call

variable {β : Type} [SpiBus β] {d d' : Driver β}

/-- The request goes through: it succeeds, and a read gives all of its bytes. -/
def Succeeds (d d' : Driver β) : Call → Prop
  | read offset length =>
    ∃ bytes, Driver.read offset length d = .ok bytes d' ∧ bytes.size = length
  | program offset data => Driver.program offset data d = .ok () d'
  | erase offset length => Driver.erase offset length d = .ok () d'

/-- The calls that a request makes on the bus. -/
def callsOn (d : Driver β) : Call → List BusCall
  | read offset length => Driver.callsOf (Driver.read offset length) d
  | program offset data => Driver.callsOf (Driver.program offset data) d
  | erase offset length => Driver.callsOf (Driver.erase offset length) d

/-- A request that goes through is within the part, and has visited its pieces one after the
other, each with the commands for it. -/
theorem Succeeds.visits {call : Call} (h : call.Succeeds d d') :
    ∃ g, d.state.layout? = some g ∧ call.objection? g none = none ∧
      Visits g.useFlagStatus g (fun piece phases => phases = call.commands g d.state.settings piece)
        d.state (call.pieces g (SpiBus.maxWrite d.bus)) (call.callsOn d) d'.state := by
  have hforget := Traced.busSimulation_forgets d.bus
  cases call with
  | read offset length =>
    obtain ⟨bytes, hread, hsize⟩ := h
    obtain ⟨g, hlayout, hobjection, hpieces⟩ := Driver.pieces_of_read
      (Driver.traced_of_ok (Driver.simulates_read hforget offset length) hread)
    have htotal := (Piece.tiles_tile g.readLimit offset length).total
    have hall : bytes.size =
        ByteArray.empty.size + Piece.total (Piece.tile g.readLimit offset length) := by
      change bytes.size = 0 + _
      omega
    obtain ⟨calls, hvisits, hcalls⟩ := Driver.visits_readPieces
      (DriverState.geometry_of_layout? hlayout).2 (fun _ h => (Piece.of_mem_tile h).1) hpieces hall
    obtain rfl : (Call.read offset length).callsOn d = calls := hcalls
    exact ⟨g, hlayout, hobjection, hvisits⟩
  | program offset data =>
    obtain ⟨g, hlayout, hobjection, hpieces⟩ := Driver.pieces_of_program
      (Driver.traced_of_ok (Driver.simulates_program hforget offset data) h)
    have hgeometry := (DriverState.geometry_of_layout? hlayout).2
    obtain ⟨calls, hvisits, hcalls⟩ := Driver.visits_forM hgeometry
      (fun settings => Piece.programCommands g settings offset data)
      (fun _ piece h => Driver.carries_programPiece h offset data piece) hpieces
    obtain rfl : (Call.program offset data).callsOn d = calls := hcalls
    exact ⟨g, hlayout, hobjection, hvisits⟩
  | erase offset length =>
    obtain ⟨g, hlayout, hobjection, hpieces⟩ := Driver.pieces_of_erase
      (Driver.traced_of_ok (Driver.simulates_erase hforget offset length) h)
    have hgeometry := (DriverState.geometry_of_layout? hlayout).2
    obtain ⟨calls, hvisits, hcalls⟩ := Driver.visits_forM hgeometry (Piece.eraseCommands g)
      (fun _ piece h => Driver.carries_erasePiece h piece) hpieces
    obtain rfl : (Call.erase offset length).callsOn d = calls := hcalls
    exact ⟨g, hlayout, hobjection, hvisits⟩

/-- The bus itself has gone through the calls of a request. -/
theorem Succeeds.replays {call : Call} (h : call.Succeeds d d') :
    Replays d.bus (call.callsOn d) d'.bus := by
  have hforget := Traced.busSimulation_forgets d.bus
  cases call with
  | read offset length =>
    obtain ⟨bytes, hread, -⟩ := h
    have hreplays := Driver.replays_callsOf (Driver.simulates_read hforget offset length)
    rwa [hread] at hreplays
  | program offset data =>
    have hreplays := Driver.replays_callsOf (Driver.simulates_program hforget offset data)
    rwa [h] at hreplays
  | erase offset length =>
    have hreplays := Driver.replays_callsOf (Driver.simulates_erase hforget offset length)
    rwa [h] at hreplays

/-- A request that is not refused goes through on a bus that goes along with it. -/
theorem succeeds_of_obliging {call : Call} {g : Geometry} (hlayout : d.state.layout? = some g)
    (hsize : g.size < UInt32.size) (hpayload : SpiBus.maxWrite d.bus ≠ some 0)
    (hobliging : Obliging d.state.settings g.useFlagStatus d.bus)
    (haccepted : call.objection? g d.state.lockCheck = none) : ∃ d', call.Succeeds d d' := by
  have hsizes : ∀ g', d.state.geometry = some g' → g'.size < UInt32.size := by
    intro g' h
    obtain rfl : g = g' :=
      Option.some.inj ((DriverState.geometry_of_layout? hlayout).2.symm.trans h)
    exact hsize
  cases call with
  | read offset length =>
    obtain ⟨bytes, d', hread, hall⟩ := Driver.read_of_obliging hlayout hobliging haccepted
    exact ⟨d', bytes, hread, hall⟩
  | program offset data =>
    exact Driver.program_of_obliging hlayout hsizes hobliging hpayload haccepted
  | erase offset length => exact Driver.erase_of_obliging hlayout hsizes hobliging haccepted

def offset : Call → Nat
  | read offset _ | program offset _ | erase offset _ => offset

def length : Call → Nat
  | read _ length | erase _ length => length
  | program _ data => data.size

theorem pieces_eq_tile (call : Call) (g : Geometry) (maxWrite : Option Nat) :
    ∃ limit, call.pieces g maxWrite = Piece.tile limit call.offset call.length := by
  cases call with
  | read offset length => exact ⟨_, rfl⟩
  | program offset data => exact ⟨_, rfl⟩
  | erase offset length => exact ⟨_, rfl⟩

section Pieces

variable {call : Call} {g : Geometry} {lockCheck : Option (Nat → Nat → Bool)}
  (haccepted : call.objection? g lockCheck = none)
include haccepted

theorem inside_of_accepted : call.offset + call.length ≤ g.size := by
  cases call with
  | read offset length =>
    rw [objection?] at haccepted
    split at haccepted
    · cases haccepted
    · exact Nat.le_of_not_lt ‹_›
  | program offset data =>
    rw [objection?] at haccepted
    split at haccepted
    · cases haccepted
    · exact Nat.le_of_not_lt ‹_›
  | erase offset length =>
    rw [objection?] at haccepted
    split at haccepted
    · cases haccepted
    · split at haccepted
      · cases haccepted
      · exact Nat.le_of_not_lt ‹_›

theorem inside_of_mem_pieces {maxWrite : Option Nat} {piece : Piece}
    (h : piece ∈ call.pieces g maxWrite) :
    piece.length ≠ 0 ∧ piece.position + piece.length ≤ g.size := by
  obtain ⟨limit, hpieces⟩ := call.pieces_eq_tile g maxWrite
  rw [hpieces] at h
  obtain ⟨hlength, -, -, hend⟩ := Piece.of_mem_tile h
  exact ⟨hlength, Nat.le_trans hend (inside_of_accepted haccepted)⟩

/-- A listener takes in of the commands for a piece what they reach, and the length of the
piece. -/
theorem hears_commands
    (herases : g.eraseCommand = .eraseSmallSector ∨ g.eraseCommand = .eraseSector)
    (settings : FlashSettings) {maxWrite : Option Nat} {piece : Piece}
    (h : piece ∈ call.pieces g maxWrite) (reached : Nat) :
    Listener.HearsAt g (call.commands g settings piece) piece reached := by
  cases call with
  | read offset length => exact Piece.hears_read piece reached
  | program offset data =>
    obtain ⟨-, -, hstart, hend⟩ := Piece.of_mem_tile h
    exact Piece.hears_program settings (by omega) reached
  | erase offset length =>
    have haligned : offset % g.eraseSize = 0 ∧ length % g.eraseSize = 0 := by
      rw [objection?] at haccepted
      split at haccepted
      · cases haccepted
      · omega
    refine Piece.hears_erase settings herases ?_ reached
    rcases Nat.eq_zero_or_pos g.eraseSize with hnone | hunit
    · -- without a unit only the empty range is aligned, and it has no pieces
      rw [hnone, Nat.mod_zero, Nat.mod_zero] at haligned
      rw [pieces, haligned.2, Piece.tile_zero] at h
      cases h
    · exact (Piece.eq_unit_of_mem_tile haligned.1 haligned.2 hunit h).2

end Pieces

end Call

end NorFlash
