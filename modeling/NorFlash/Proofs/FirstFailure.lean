import NorFlash.Bench.RecordingBus
import NorFlash.Proofs.Progress
import NorFlash.Proofs.Stack

/-!
What becomes of a request on any bus and in any state of the driver. A request that is refused
touches nothing. Any other goes through its pieces and stops at the first transfer that fails or
wait that runs out; erase and program pass that failure on, a read passes it on only when it has
read nothing.
-/
namespace NorFlash

/-- The layout of the part, once it is ready for requests. -/
def DriverState.layout? (state : DriverState) : Option Geometry :=
  if state.lifecycle = .ready then state.geometry else none

theorem DriverState.geometry_of_layout? {state : DriverState} {g : Geometry}
    (h : state.layout? = some g) : state.lifecycle = .ready ∧ state.geometry = some g := by
  unfold layout? at h
  split at h
  case isTrue hready => exact ⟨hready, h⟩
  case isFalse => cases h

namespace Call

/-- The first objection of a part that is ready: to the alignment of an erase, to the range, and
of the installed check to the erase or program of that range. -/
def objection? (g : Geometry) (lockCheck : Option (Nat → Nat → Bool)) : Call → Option Error
  | read offset length => if g.size < offset + length then some .addressOutOfBounds else none
  | program offset data =>
    if g.size < offset + data.size then some .addressOutOfBounds
    else if lockCheck.any (· offset data.size) then some .regionProtected
    else none
  | erase offset length =>
    if offset % g.eraseSize ≠ 0 ∨ length % g.eraseSize ≠ 0 then some .misaligned
    else if g.size < offset + length then some .addressOutOfBounds
    else if lockCheck.any (· offset length) then some .regionProtected
    else none

/-- Why a request is refused, if it is. -/
def refusal? (state : DriverState) (call : Call) : Option Error :=
  match state.layout? with
  | none => some .notReady
  | some g => call.objection? g state.lockCheck

/-- The pieces that a request is cut into. -/
def pieces (g : Geometry) (maxWrite : Option Nat) : Call → List Piece
  | read offset length => Piece.tile g.readLimit offset length
  | program offset data => Piece.tile (g.programLimit maxWrite) offset data.size
  | erase offset length => Piece.tile (fun _ => g.eraseSize) offset length

/-- The commands that a request sends for a piece of it. -/
def commands (g : Geometry) (settings : FlashSettings) : Call → Piece → List Phase
  | read _ _ => Piece.readCommands g
  | program offset data => Piece.programCommands g settings offset data
  | erase _ _ => Piece.eraseCommands g settings

/-- What a request comes to that makes these calls: it is refused and makes none, or its calls
are those of its pieces up to the first failure. -/
def Goes {β : Type} [SpiBus β] (call : Call) (d : Driver β) (calls : List BusCall)
    (refused : Error → Prop) (went : Progress → Prop) : Prop :=
  match call.refusal? d.state with
  | some cause => calls = [] ∧ refused cause
  | none =>
    ∃ g progress, d.state.layout? = some g ∧
      Course g.useFlagStatus g (call.commands g d.state.settings) d.state
        (call.pieces g (SpiBus.maxWrite d.bus)) progress ∧
      calls = progress.calls ∧
      Ends d.state.settings g.useFlagStatus calls progress.failure ∧ went progress

end Call

namespace Driver

section Checks

variable {β : Type} {d : Driver β} {g : Geometry} {offset length : Nat}

theorem requireReady_of_layout (h : d.state.layout? = some g) : requireReady d = .ok g d := by
  obtain ⟨hready, hlayout⟩ := DriverState.geometry_of_layout? h
  refine (bind_of_ok (getState_eq d) _).trans ?_
  rw [hready, hlayout]
  rfl

theorem requireReady_of_none (h : d.state.layout? = none) :
    requireReady d = .error .notReady d := by
  obtain ⟨bus, settings, lifecycle, geometry, bank, upper, lockCheck⟩ := d
  cases lifecycle with
  | uninitialized => rfl
  | scanning => rfl
  | ready =>
    cases geometry with
    | none => rfl
    | some g => cases h

/-- A range that lies inside the part is put to the installed check as it is. -/
theorem inside_unlocked_eq {κ : Type} (hsize : g.size < UInt32.size) (f : Unit → Action β κ) :
    (requireInside g offset length >>= fun _ => requireUnlocked offset length >>= f) d =
      if g.size < offset + length then .error .addressOutOfBounds d
      else if d.state.lockCheck.any (· offset length) then .error .regionProtected d
      else f () d := by
  by_cases hout : g.size < offset + length
  · rw [if_pos hout]
    exact bind_of_error (requireInside_of_lt d hout) _
  · have hlock : requireUnlocked offset length d =
        if d.state.lockCheck.any (· offset length) then .error .regionProtected d
        else .ok () d := by
      refine (bind_of_ok (getState_eq d) _).trans ?_
      rw [Nat.mod_eq_of_lt (by omega)]
      split <;> rfl
    rw [if_neg hout]
    refine (bind_of_ok (requireInside_of_le d (Nat.le_of_not_lt hout)) _).trans ?_
    split at hlock
    case isTrue hlocked =>
      rw [if_pos hlocked]
      exact bind_of_error hlock _
    case isFalse hopen =>
      rw [if_neg hopen]
      exact bind_of_ok hlock _

end Checks

section Requests

variable {β : Type} [SpiBus β] {d : Driver β} {g : Geometry}

/-- The result of a request to a part that is ready: that of its pieces unless it is refused. -/
def unlessRefused {α : Type} (call : Call) (g : Geometry) (x : Action β α) : Action β α :=
  fun d =>
    match call.objection? g d.state.lockCheck with
    | some cause => .error cause d
    | none => x d

theorem erase_of_layout (h : d.state.layout? = some g) (hsize : g.size < UInt32.size)
    (offset length : Nat) :
    erase offset length d =
      unlessRefused (.erase offset length) g
        ((Piece.tile (fun _ => g.eraseSize) offset length).forM (erasePiece g)) d := by
  refine (bind_of_ok (requireReady_of_layout h) _).trans ?_
  unfold unlessRefused Call.objection?
  dsimp only
  by_cases hmisaligned : offset % g.eraseSize ≠ 0 ∨ length % g.eraseSize ≠ 0
  · rw [if_pos hmisaligned, if_pos hmisaligned]
    rfl
  · rw [if_neg hmisaligned, if_neg hmisaligned]
    refine (inside_unlocked_eq hsize _).trans ?_
    rw [← erasePieces_eq_forM]
    split
    · rfl
    · split <;> rfl

theorem program_of_layout (h : d.state.layout? = some g) (hsize : g.size < UInt32.size)
    (hpayload : SpiBus.maxWrite d.bus ≠ some 0) (offset : Nat) (data : ByteArray) :
    program offset data d =
      unlessRefused (.program offset data) g
        ((Piece.tile (g.programLimit (SpiBus.maxWrite d.bus)) offset data.size).forM
          (programPiece g offset data)) d := by
  refine (bind_of_ok (requireReady_of_layout h) _).trans ((inside_unlocked_eq hsize _).trans ?_)
  unfold unlessRefused Call.objection?
  rw [← programPieces_eq_forM]
  dsimp only
  split
  · rfl
  · split
    · rfl
    · let limit : Action β (Option Nat) := fun driver => .ok (SpiBus.maxWrite driver.bus) driver
      have hlimit : limit d = .ok (SpiBus.maxWrite d.bus) d := rfl
      refine (bind_of_ok hlimit _).trans ?_
      rw [if_neg fun h => hpayload h.1]

theorem read_of_layout (h : d.state.layout? = some g) (offset length : Nat) :
    read offset length d =
      unlessRefused (.read offset length) g
        (readPieces g (Piece.tile g.readLimit offset length) .empty) d := by
  refine (bind_of_ok (requireReady_of_layout h) _).trans ?_
  unfold unlessRefused Call.objection?
  dsimp only
  by_cases hout : g.size < offset + length
  · rw [if_pos hout]
    exact bind_of_error (requireInside_of_lt d hout) _
  · rw [if_neg hout]
    exact bind_of_ok (requireInside_of_le d (Nat.le_of_not_lt hout)) _

end Requests

section Goes

variable {β α : Type} [SpiBus β] {d : Driver β} {call : Call}

theorem wait_of_mem_commands {g : Geometry} {settings : FlashSettings} {piece : Piece}
    {timeout : UInt32} (h : .wait timeout ∈ call.commands g settings piece) :
    timeout = settings.programTimeout ∨ timeout = settings.eraseTimeout := by
  cases call with
  | read offset length => simp [Call.commands, Piece.readCommands, Phase.receive] at h
  | program offset data => exact wait_of_mem_write h
  | erase offset length => exact wait_of_mem_write h

theorem concluded_of_traced {x : Action (Traced β) α} {y : Action β α}
    (hxy : Simulates (Alike (Traced.Forgets d.bus)) x y) {outcome : Except Error α}
    {d' : Driver (Traced β)} (h : x d.traced = concluded outcome d') :
    y d = concluded outcome ⟨d'.bus.bus, d'.state⟩ ∧ callsOf x d = d'.bus.calls := by
  cases outcome with
  | ok value => exact ok_of_traced hxy h
  | error cause => exact error_of_traced hxy h

/-- What a request comes to follows from what it does over the noted bus: it is refused, or goes
on to its pieces. -/
theorem goes_of {x : Action (Traced β) α} {y : Action β α}
    {pieces : Geometry → Action (Traced β) α} {outcome : Progress → Except Error α}
    (hxy : Simulates (Alike (Traced.Forgets d.bus)) x y)
    (hnone : d.state.layout? = none → x d.traced = .error .notReady d.traced)
    (hsome : ∀ g, d.state.layout? = some g →
      x d.traced = unlessRefused call g (pieces g) d.traced)
    (hpieces : ∀ g, d.state.geometry = some g → ∃ (progress : Progress) (d' : Driver (Traced β)),
      Course g.useFlagStatus g (call.commands g d.state.settings) d.state
        (call.pieces g (SpiBus.maxWrite d.bus)) progress ∧
      d'.bus.calls = progress.calls ∧ pieces g d.traced = concluded (outcome progress) d') :
    call.Goes d (callsOf x d) (fun cause => y d = .error cause d)
      fun progress => ∃ d', y d = concluded (outcome progress) d' := by
  unfold Call.Goes Call.refusal?
  cases hlayout : d.state.layout? with
  | none =>
    obtain ⟨hy, hcalls⟩ := error_of_traced hxy (hnone hlayout)
    exact ⟨hcalls, hy⟩
  | some g =>
    have hx := hsome g hlayout
    unfold unlessRefused at hx
    dsimp only
    have hstate : d.traced.state = d.state := rfl
    rw [hstate] at hx
    cases hobjection : call.objection? g d.state.lockCheck with
    | some cause =>
      rw [hobjection] at hx
      obtain ⟨hy, hcalls⟩ := error_of_traced hxy hx
      exact ⟨hcalls, hy⟩
    | none =>
      rw [hobjection] at hx
      obtain ⟨progress, d', hcourse, hcalls, hend⟩ :=
        hpieces g (DriverState.geometry_of_layout? hlayout).2
      obtain ⟨hy, htraced⟩ := concluded_of_traced hxy (hx.trans hend)
      rw [hcalls] at htraced
      refine ⟨g, progress, rfl, hcourse, htraced, ?_, _, hy⟩
      rw [htraced]
      exact hcourse.ends fun _ _ h => wait_of_mem_commands h

variable (hsize : ∀ g, d.state.geometry = some g → g.size < UInt32.size)

include hsize in
theorem erase_goes (offset length : Nat) :
    (Call.erase offset length).Goes d (callsOf (erase offset length) d)
      (fun cause => erase offset length d = .error cause d)
      fun progress => ∃ d', erase offset length d = concluded (progress.outcome ()) d' := by
  refine goes_of (simulates_erase (Traced.busSimulation_forgets d.bus) ..)
    (fun h => bind_of_error (requireReady_of_none (d := d.traced) h) _)
    (fun g h => erase_of_layout (d := d.traced) h (hsize g (DriverState.geometry_of_layout? h).2)
      offset length) fun g h => ?_
  obtain ⟨progress, d', hcourse, hcalls, hend⟩ := course_forM h (Piece.eraseCommands g)
    (fun _ piece h => carries_erasePiece h piece)
    (Piece.tile (fun _ => g.eraseSize) offset length) d.bus []
  exact ⟨progress, d', hcourse, hcalls, hend⟩

include hsize in
theorem program_goes (hpayload : SpiBus.maxWrite d.bus ≠ some 0) (offset : Nat)
    (data : ByteArray) :
    (Call.program offset data).Goes d (callsOf (program offset data) d)
      (fun cause => program offset data d = .error cause d)
      fun progress => ∃ d', program offset data d = concluded (progress.outcome ()) d' := by
  refine goes_of (simulates_program (Traced.busSimulation_forgets d.bus) ..)
    (fun h => bind_of_error (requireReady_of_none (d := d.traced) h) _)
    (fun g h => program_of_layout (d := d.traced) h (hsize g (DriverState.geometry_of_layout? h).2)
      hpayload offset data) fun g h => ?_
  obtain ⟨progress, d', hcourse, hcalls, hend⟩ := course_forM h
    (fun settings => Piece.programCommands g settings offset data)
    (fun _ piece h => carries_programPiece h offset data piece)
    (Piece.tile (g.programLimit (SpiBus.maxWrite d.bus)) offset data.size) d.bus []
  exact ⟨progress, d', hcourse, hcalls, hend⟩

theorem read_goes (offset length : Nat) :
    (Call.read offset length).Goes d (callsOf (read offset length) d)
      (fun cause => read offset length d = .error cause d)
      fun progress => ∃ d', read offset length d = concluded progress.readOutcome d' := by
  refine goes_of (simulates_read (Traced.busSimulation_forgets d.bus) ..)
    (fun h => bind_of_error (requireReady_of_none (d := d.traced) h) _)
    (fun g h => read_of_layout (d := d.traced) h offset length) fun g h => ?_
  obtain ⟨progress, d', hcourse, hcalls, hend⟩ := course_readPieces h
    (Piece.tile g.readLimit offset length) (fun _ h => (Piece.of_mem_tile h).1) .empty
    d.bus []
  have houtcome : (if ByteArray.empty.size = 0 ∧ progress.completed = [] then
      progress.outcome (.empty ++ progress.data) else .ok (.empty ++ progress.data)) =
      progress.readOutcome := by
    simp [Progress.readOutcome]
  exact ⟨progress, d', hcourse, hcalls, houtcome ▸ hend⟩

end Goes

end Driver

end NorFlash
