import NorFlash.Proofs.ArrayAccess
import NorFlash.Proofs.ScriptedDriver

/-!
How far a request comes: the pieces that are carried out, each with its calls, and the calls of
the piece that fails. The calls of a request are those of its pieces in order, and the first
failure among them is the last of them.
-/
namespace NorFlash

/-- The calls up to a failure: the last of them is the transfer that failed, or all checks of a
wait stand at their end. -/
inductive Ends (settings : FlashSettings) (flagged : Bool) :
    List BusCall → Option Error → Prop where
  | finished {calls : List BusCall} (untroubled : BusCall.Untroubled calls) :
    Ends settings flagged calls none
  | failed {before : List BusCall} (untroubled : BusCall.Untroubled before) (request : Transfer)
    (cause : Error) :
    Ends settings flagged (before ++ [.transfer request (.error cause)]) (some cause)
  | exhausted {before polls : List BusCall} {timeout : UInt32}
    (untroubled : BusCall.Untroubled before)
    (chosen : timeout = settings.programTimeout ∨ timeout = settings.eraseTimeout)
    (idle : Idle flagged (Poll.attempts timeout) polls) :
    Ends settings flagged (before ++ polls) (some .busyTimeout)

section Ends

variable {settings : FlashSettings} {flagged : Bool} {calls : List BusCall}
  {failure : Option Error}

theorem Ends.after {before : List BusCall} (hbefore : BusCall.Untroubled before)
    (h : Ends settings flagged calls failure) :
    Ends settings flagged (before ++ calls) failure := by
  cases h with
  | finished untroubled => exact .finished (hbefore.append untroubled)
  | failed untroubled request cause =>
    rw [← List.append_assoc]
    exact .failed (hbefore.append untroubled) request cause
  | exhausted untroubled chosen idle =>
    rw [← List.append_assoc]
    exact .exhausted (hbefore.append untroubled) chosen idle

theorem Ends.untroubled (h : Ends settings flagged calls none) : BusCall.Untroubled calls := by
  cases h with
  | finished untroubled => exact untroubled

theorem Sent.ends {requests : List Transfer} (h : Sent requests calls failure)
    (settings : FlashSettings) (flagged : Bool) : Ends settings flagged calls failure := by
  induction h with
  | done => exact .finished .nil
  | answered request bytes rest ih => exact ih.after (.singleton rfl)
  | failed request requests cause => exact .failed .nil request cause

theorem Sent.untroubled {requests : List Transfer} (h : Sent requests calls none) :
    BusCall.Untroubled calls :=
  (h.ends default false).untroubled

theorem Idle.untroubled {checks : Nat} (h : Idle flagged checks calls) :
    BusCall.Untroubled calls := by
  induction h with
  | nil => exact .nil
  | again sent busy rest ih =>
    exact sent.untroubled.append ((BusCall.Untroubled.singleton rfl).append ih)

theorem Phase.Run.ends {phase : Phase} (h : phase.Run flagged calls failure)
    (hwait : ∀ timeout, phase = .wait timeout →
      timeout = settings.programTimeout ∨ timeout = settings.eraseTimeout) :
    Ends settings flagged calls failure := by
  cases h with
  | command sent => exact sent.ends settings flagged
  | release => exact .finished (.singleton rfl)
  | selectUpper upper => exact .finished (.singleton rfl)
  | wait waits =>
    cases waits with
    | settled idle left sent ready => exact .finished (idle.untroubled.append sent.untroubled)
    | broken idle left sent => exact (sent.ends settings flagged).after idle.untroubled
    | spent idle => exact .exhausted .nil (hwait _ rfl) idle

theorem Performed.ends {phases : List Phase} (h : Performed flagged phases calls failure)
    (hwait : ∀ timeout, .wait timeout ∈ phases →
      timeout = settings.programTimeout ∨ timeout = settings.eraseTimeout) :
    Ends settings flagged calls failure := by
  induction h with
  | done => exact .finished .nil
  | carried run rest ih =>
    have hrun : Ends settings flagged _ none :=
      run.ends fun timeout h => hwait timeout (by simp [h])
    exact (ih fun timeout h => hwait timeout (List.mem_cons_of_mem _ h)).after hrun.untroubled
  | stopped run phases => exact run.ends fun timeout h => hwait timeout (by simp [h])

end Ends

/-- An outcome together with the state that is left. -/
def concluded {σ α : Type} (outcome : Except Error α) (s : σ) : EStateM.Result Error σ α :=
  match outcome with
  | .ok value => .ok value s
  | .error cause => .error cause s

/-- The length of pieces one behind the other. -/
def Piece.total : List Piece → Nat
  | [] => 0
  | piece :: pieces => piece.length + total pieces

/-- How far a request has come. -/
structure Progress where
  /-- The pieces that were carried out, each with its calls. -/
  completed : List (Piece × List BusCall)
  /-- The calls of the piece that failed. -/
  broken : List BusCall
  failure : Option Error

namespace Progress

variable (progress : Progress)

def calls : List BusCall :=
  (progress.completed.map Prod.snd).flatten ++ progress.broken

/-- The length of the pieces that were carried out. -/
def length : Nat :=
  Piece.total (progress.completed.map Prod.fst)

/-- The data phases of the pieces that were carried out, one behind the other. -/
def data : ByteArray :=
  progress.completed.foldr (fun done rest =>
    Bytes.resize ((BusCall.lastReceived? done.2).getD .empty) done.1.length ++ rest) .empty

/-- The progress with one more piece carried out ahead of the others. -/
def cons (piece : Piece) (calls : List BusCall) : Progress :=
  { progress with completed := (piece, calls) :: progress.completed }

theorem calls_cons (piece : Piece) (first : List BusCall) :
    (progress.cons piece first).calls = first ++ progress.calls := by
  simp [calls, cons, List.append_assoc]

theorem size_data : progress.data.size = progress.length := by
  obtain ⟨completed, broken, failure⟩ := progress
  unfold data length
  induction completed with
  | nil => rfl
  | cons done completed ih =>
    rw [List.foldr_cons, ByteArray.size_append, Bytes.size_resize, ih]
    rfl

/-- The outcome of an operation that fails as soon as one of its pieces does. -/
def outcome {α : Type} (value : α) : Except Error α :=
  match progress.failure with
  | none => .ok value
  | some cause => .error cause

/-- The outcome of a read, which fails only when it has read nothing. -/
def readOutcome : Except Error ByteArray :=
  if progress.completed = [] then progress.outcome progress.data else .ok progress.data

end Progress

/-- A request goes through its pieces in order, up to the first that fails. Each of them visits
its position and then sends its commands. -/
inductive Course (flagged : Bool) (g : Geometry) (commands : Piece → List Phase) :
    DriverState → List Piece → Progress → Prop where
  | finished (state : DriverState) : Course flagged g commands state [] ⟨[], [], none⟩
  | completed {state : DriverState} {piece : Piece} {pieces : List Piece} {calls : List BusCall}
    {progress : Progress}
    (performed : Performed flagged (Phase.visit g state piece.position ++ commands piece) calls
      none)
    (rest : Course flagged g commands (.visited g state piece.position) pieces progress) :
    Course flagged g commands state (piece :: pieces) (progress.cons piece calls)
  | stopped {state : DriverState} {piece : Piece} (pieces : List Piece) {calls : List BusCall}
    {cause : Error}
    (performed : Performed flagged (Phase.visit g state piece.position ++ commands piece) calls
      (some cause)) :
    Course flagged g commands state (piece :: pieces) ⟨[], calls, some cause⟩

/-- A piece of a range lies inside of it, is not empty and keeps to the limit at its position. -/
theorem Piece.of_mem_tile {limit : Nat → Nat} {position length : Nat} {piece : Piece}
    (h : piece ∈ tile limit position length) :
    piece.length ≠ 0 ∧ piece.length ≤ max 1 (limit piece.position) ∧
      position ≤ piece.position ∧ piece.position + piece.length ≤ position + length := by
  induction length using Nat.strongRecOn generalizing position with
  | _ length ih =>
    by_cases hzero : length = 0
    · rw [hzero, tile_zero] at h
      cases h
    · rw [tile_of_ne_zero _ _ hzero] at h
      cases h with
      | head =>
        dsimp only
        omega
      | tail _ hrest =>
        obtain ⟨hlength, hlimit, hstart, hend⟩ := ih _ (by omega) hrest
        exact ⟨hlength, hlimit, by omega, by omega⟩

section Course

variable {flagged : Bool} {g : Geometry} {commands : Piece → List Phase} {state : DriverState}
  {pieces : List Piece} {progress : Progress}

/-- A request that does not fail carries out all of its pieces. -/
theorem Course.completed_eq (h : Course flagged g commands state pieces progress)
    (hnone : progress.failure = none) : progress.completed.map Prod.fst = pieces := by
  induction h with
  | finished state => rfl
  | completed performed rest ih => exact congrArg (_ :: ·) (ih hnone)
  | stopped pieces performed => cases hnone

theorem wait_of_mem_write {settings : FlashSettings} {frame : Frame} {payload : Option ByteArray}
    {timeout : UInt32} (h : .wait timeout ∈ Phase.write settings frame payload) :
    timeout = settings.programTimeout ∨ timeout = settings.eraseTimeout := by
  simp only [Phase.write, List.mem_cons, reduceCtorEq, Phase.wait.injEq, List.not_mem_nil,
    false_or, or_false] at h
  subst h
  split
  · exact .inl rfl
  · exact .inr rfl

theorem wait_of_mem_visit {timeout : UInt32} {position : Nat}
    (h : .wait timeout ∈ Phase.visit g state position) :
    timeout = state.settings.programTimeout ∨ timeout = state.settings.eraseTimeout := by
  rcases List.mem_append.mp h with hroute | hselect
  · split at hroute <;> simp at hroute
  · unfold Phase.selectBank at hselect
    split at hselect
    · simp at hselect
    · split at hselect
      · simp at hselect
      · exact wait_of_mem_write hselect

theorem Course.ends (h : Course flagged g commands state pieces progress)
    (hwait : ∀ piece timeout, .wait timeout ∈ commands piece →
      timeout = state.settings.programTimeout ∨ timeout = state.settings.eraseTimeout) :
    Ends state.settings flagged progress.calls progress.failure := by
  have hpiece {state : DriverState} {piece : Piece}
      (hwait : ∀ piece timeout, .wait timeout ∈ commands piece →
        timeout = state.settings.programTimeout ∨ timeout = state.settings.eraseTimeout)
      (timeout : UInt32)
      (hmem : .wait timeout ∈ Phase.visit g state piece.position ++ commands piece) :
      timeout = state.settings.programTimeout ∨ timeout = state.settings.eraseTimeout :=
    (List.mem_append.mp hmem).elim wait_of_mem_visit (hwait piece timeout)
  induction h with
  | finished state => exact .finished .nil
  | completed performed rest ih =>
    rw [Progress.calls_cons]
    exact (ih hwait).after (performed.ends (hpiece hwait)).untroubled
  | stopped pieces performed => exact performed.ends (hpiece hwait)

end Course

/-- The commands for a piece that has been visited. -/
def Piece.eraseCommands (g : Geometry) (settings : FlashSettings) (piece : Piece) : List Phase :=
  let address := (g.locate piece.position).address
  Phase.write settings (.withAddress g.eraseCommand.byte g.width (.ofNat address)) none

def Piece.programCommands (g : Geometry) (settings : FlashSettings) (offset : Nat)
    (data : ByteArray) (piece : Piece) : List Phase :=
  let address := (g.locate piece.position).address
  Phase.write settings (.withAddress g.programMode.opcode.byte g.width (.ofNat address))
    (some (Bytes.slice data (piece.position - offset) piece.length))

def Piece.readCommands (g : Geometry) (piece : Piece) : List Phase :=
  let address := (g.locate piece.position).address
  let frame := Frame.withAddress g.readMode.opcode.byte g.width (.ofNat address)
  Phase.receive (frame.withDummy g.readMode.dummyBytes) piece.length

namespace Driver

variable {β : Type} [SpiBus β] {g : Geometry} {state : DriverState}

section Pieces

variable (hlayout : state.geometry = some g)
include hlayout

omit [SpiBus β] in
theorem flagged_of_layout : state.geometry.any (·.useFlagStatus) = g.useFlagStatus := by
  rw [hlayout]
  rfl

theorem carries_erasePiece (piece : Piece) :
    Carries g.useFlagStatus state
      (Phase.visit g state piece.position ++ piece.eraseCommands g state.settings)
      (erasePiece g piece : Action (Traced β) Unit) (.visited g state piece.position)
      fun _ _ => True := by
  have hvisited : (DriverState.visited g state piece.position).geometry = some g := hlayout
  exact (carries_visit (flagged_of_layout hlayout) g piece.position).bindEq
    (carries_write (flagged_of_layout hvisited) _ _) fun h => h

theorem carries_programPiece (offset : Nat) (data : ByteArray) (piece : Piece) :
    Carries g.useFlagStatus state
      (Phase.visit g state piece.position ++ piece.programCommands g state.settings offset data)
      (programPiece g offset data piece : Action (Traced β) Unit)
      (.visited g state piece.position) fun _ _ => True := by
  have hvisited : (DriverState.visited g state piece.position).geometry = some g := hlayout
  exact (carries_visit (flagged_of_layout hlayout) g piece.position).bindEq
    (carries_write (flagged_of_layout hvisited) _ _) fun h => h

/-- The bytes of a piece are the data phase of its command. -/
theorem carries_readPiece (piece : Piece) :
    Carries g.useFlagStatus state
      (Phase.visit g state piece.position ++ piece.readCommands g)
      (readPiece g piece : Action (Traced β) ByteArray) (.visited g state piece.position)
      fun calls value => value =
        Bytes.resize ((BusCall.lastReceived? calls).getD .empty) piece.length := by
  refine (carries_visit (flagged_of_layout hlayout) g piece.position).bindEq
    (R := fun calls value => ∃ bytes, BusCall.lastReceived? calls = some bytes ∧
      value = Bytes.resize bytes piece.length) ?_ ?_ |>.imp ?_
  · rw [← List.append_nil (piece.readCommands g)]
    exact (carries_receive _ piece.length).bind
      (R := fun bytes calls value => calls = [] ∧ value = Bytes.resize bytes piece.length)
      (fun _ => .pure ⟨rfl, rfl⟩) fun {_ bytes _ _} hfirst ⟨hmore, hvalue⟩ => by
        rw [hmore, List.append_nil]
        exact ⟨bytes, hfirst, hvalue⟩
  · rintro first more value ⟨bytes, hmore, hvalue⟩
    exact ⟨bytes, BusCall.lastReceived?_append hmore first, hvalue⟩
  · rintro calls value ⟨bytes, hcalls, rfl⟩
    rw [hcalls]
    rfl

omit [SpiBus β] in
/-- Pieces carried out one after the other, each of them as its script says. -/
theorem course_forM (commands : FlashSettings → Piece → List Phase)
    {step : Piece → Action (Traced β) Unit}
    (hstep : ∀ (state : DriverState) piece, state.geometry = some g →
      Carries g.useFlagStatus state
        (Phase.visit g state piece.position ++ commands state.settings piece)
        (step piece) (.visited g state piece.position) fun _ _ => True)
    (pieces : List Piece) (bus : β) (before : List BusCall) :
    ∃ progress d', Course g.useFlagStatus g (commands state.settings) state pieces progress ∧
      d'.bus.calls = before ++ progress.calls ∧
      pieces.forM step ⟨⟨bus, before⟩, state⟩ = concluded (progress.outcome ()) d' := by
  induction pieces generalizing state bus before with
  | nil => exact ⟨_, ⟨⟨bus, before⟩, state⟩, .finished state, (List.append_nil before).symm, rfl⟩
  | cons piece pieces ih =>
    have hpiece := hstep state piece hlayout bus before
    generalize hr : step piece ⟨⟨bus, before⟩, state⟩ = r at hpiece
    cases hpiece with
    | error performed => exact ⟨_, _, .stopped pieces performed, rfl, bind_of_error hr _⟩
    | @ok calls value bus' performed gives =>
      have hvisited : (DriverState.visited g state piece.position).geometry = some g := hlayout
      obtain ⟨progress, d', hcourse, hcalls, hrest⟩ := ih hvisited bus' (before ++ calls)
      refine ⟨_, d', .completed performed hcourse, ?_, (bind_of_ok hr _).trans hrest⟩
      rw [hcalls, Progress.calls_cons, List.append_assoc]

/-- A read goes on from what has been read so far. -/
theorem course_readPieces (pieces : List Piece) (hpieces : ∀ piece ∈ pieces, piece.length ≠ 0)
    (done : ByteArray) (bus : β) (before : List BusCall) :
    ∃ (progress : Progress) (d' : Driver (Traced β)),
      Course g.useFlagStatus g (Piece.readCommands g) state pieces progress ∧
      d'.bus.calls = before ++ progress.calls ∧
      readPieces g pieces done ⟨⟨bus, before⟩, state⟩ =
        concluded (if done.size = 0 ∧ progress.completed = [] then
          progress.outcome (done ++ progress.data) else .ok (done ++ progress.data)) d' := by
  induction pieces generalizing state done bus before with
  | nil =>
    refine ⟨_, ⟨⟨bus, before⟩, state⟩, .finished state, (List.append_nil before).symm, ?_⟩
    have hnothing : done ++ (⟨[], [], none⟩ : Progress).data = done := ByteArray.append_empty
    rw [hnothing]
    split <;> rfl
  | cons piece pieces ih =>
    have hpiece := carries_readPiece hlayout piece bus before
    generalize hr : (readPiece g piece : Action (Traced β) ByteArray) ⟨⟨bus, before⟩, state⟩ = r
      at hpiece
    cases hpiece with
    | @error calls cause bus' state' performed =>
      refine ⟨_, ⟨⟨bus', before ++ calls⟩, state'⟩, .stopped pieces performed, rfl, ?_⟩
      refine (bind_of_ok (attempt_of_error hr) _).trans ?_
      dsimp only
      by_cases hzero : done.size = 0
      · rw [if_pos hzero, if_pos ⟨hzero, rfl⟩]
        rfl
      · rw [if_neg hzero, if_neg (fun h => hzero h.1)]
        exact congrArg (EStateM.Result.ok · _) ByteArray.append_empty.symm
    | @ok calls bytes bus' performed gives =>
      have hvisited : (DriverState.visited g state piece.position).geometry = some g := hlayout
      obtain ⟨progress, d', hcourse, hcalls, hrest⟩ :=
        ih hvisited (fun piece h => hpieces piece (List.mem_cons_of_mem _ h)) (done ++ bytes) bus'
          (before ++ calls)
      refine ⟨_, d', .completed performed hcourse, ?_, ?_⟩
      · rw [hcalls, Progress.calls_cons, List.append_assoc]
      · have hsize : (done ++ bytes).size ≠ 0 := by
          have hlength := hpieces piece List.mem_cons_self
          rw [ByteArray.size_append, gives, Bytes.size_resize]
          omega
        have hdata : (progress.cons piece calls).data = bytes ++ progress.data := by
          rw [gives]
          rfl
        refine (bind_of_ok (attempt_of_ok hr) _).trans (hrest.trans ?_)
        rw [if_neg fun h => hsize h.1, if_neg fun h => List.cons_ne_nil _ _ h.2, hdata,
          ByteArray.append_assoc]

end Pieces

end Driver

end NorFlash
