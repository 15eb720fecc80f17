import NorFlash.Proofs.Simulation
import NorFlash.Proofs.WriteCycle

/-!
The calls that an operation makes on its bus. The driver runs over a bus that notes every call with
its answer, and behaves there as it does over the bus itself.
-/
namespace NorFlash

/-- A call of a bus, with what it answered. -/
inductive BusCall where
  | transfer (request : Transfer) (answer : Except Error ByteArray)
  | release
  | selectUpper (upper : Bool)
  | delay (microseconds : UInt32)

namespace BusCall

/-- Why the call failed, if it did. -/
def failure? : BusCall → Option Error
  | transfer _ (.error cause) => some cause
  | _ => none

/-- The bytes that a transfer has received. -/
def received? : BusCall → Option ByteArray
  | transfer _ (.ok bytes) => some bytes
  | _ => none

/-- What the transfers that succeeded have received. -/
def received (calls : List BusCall) : List ByteArray :=
  calls.filterMap received?

@[simp] theorem received_append (calls more : List BusCall) :
    received (calls ++ more) = received calls ++ received more :=
  List.filterMap_append

/-- The data phase of a command is what its last transfer has received. -/
def lastReceived? (calls : List BusCall) : Option ByteArray :=
  (received calls).getLast?

theorem lastReceived?_append {more : List BusCall} {bytes : ByteArray}
    (h : lastReceived? more = some bytes) (calls : List BusCall) :
    lastReceived? (calls ++ more) = some bytes := by
  unfold lastReceived? at h ⊢
  rw [received_append, List.getLast?_append, h, Option.some_or]

theorem lastReceived?_release (calls : List BusCall) :
    lastReceived? (calls ++ [.release]) = lastReceived? calls := by
  have hnothing : received [.release] = [] := rfl
  rw [lastReceived?, received_append, hnothing, List.append_nil, lastReceived?]

/-- None of the calls failed. -/
def Untroubled (calls : List BusCall) : Prop :=
  ∀ call ∈ calls, call.failure? = none

theorem Untroubled.nil : Untroubled [] := by
  simp [Untroubled]

theorem Untroubled.append {calls more : List BusCall} (h : Untroubled calls)
    (hmore : Untroubled more) : Untroubled (calls ++ more) := by
  intro call hcall
  rcases List.mem_append.mp hcall with hfirst | hsecond
  · exact h call hfirst
  · exact hmore call hsecond

theorem Untroubled.singleton {call : BusCall} (h : call.failure? = none) :
    Untroubled [call] := by
  intro other hother
  rwa [List.mem_singleton.mp hother]

end BusCall

/-- A bus with the calls made on it so far. -/
structure Traced (β : Type) where
  bus : β
  calls : List BusCall

namespace Traced

variable {β : Type}

/-- Applies a change to the bus and notes the call that made it. -/
def after (call : BusCall) (change : β → β) (traced : Traced β) : Traced β :=
  ⟨change traced.bus, traced.calls ++ [call]⟩

variable [SpiBus β]

instance : SpiBus (Traced β) where
  transfer request
    | ⟨bus, calls⟩ =>
      match SpiBus.transfer request bus with
      | .ok bytes bus => .ok bytes ⟨bus, calls ++ [.transfer request (.ok bytes)]⟩
      | .error cause bus => .error cause ⟨bus, calls ++ [.transfer request (.error cause)]⟩
  maxWrite traced := SpiBus.maxWrite traced.bus
  release := after .release SpiBus.release
  selectUpper upper := after (.selectUpper upper) (SpiBus.selectUpper upper)
  delay microseconds := after (.delay microseconds) (SpiBus.delay microseconds)

theorem transfer_of_ok {request : Transfer} {bus bus' : β} {bytes : ByteArray}
    (h : SpiBus.transfer request bus = .ok bytes bus') (calls : List BusCall) :
    SpiBus.transfer request (⟨bus, calls⟩ : Traced β) =
      .ok bytes ⟨bus', calls ++ [.transfer request (.ok bytes)]⟩ := by
  simp only [SpiBus.transfer]
  rw [h]

theorem transfer_of_error {request : Transfer} {bus bus' : β} {cause : Error}
    (h : SpiBus.transfer request bus = .error cause bus') (calls : List BusCall) :
    SpiBus.transfer request (⟨bus, calls⟩ : Traced β) =
      .error cause ⟨bus', calls ++ [.transfer request (.error cause)]⟩ := by
  simp only [SpiBus.transfer]
  rw [h]

end Traced

section Replay

variable {β : Type} [SpiBus β]

/-- A call that a bus answers in this way, and the bus that it leaves. -/
inductive BusCall.Answered : BusCall → β → β → Prop where
  | received {request : Transfer} {bytes : ByteArray} {bus bus' : β}
    (answer : SpiBus.transfer request bus = .ok bytes bus') :
    Answered (.transfer request (.ok bytes)) bus bus'
  | failed {request : Transfer} {cause : Error} {bus bus' : β}
    (answer : SpiBus.transfer request bus = .error cause bus') :
    Answered (.transfer request (.error cause)) bus bus'
  | release (bus : β) : Answered .release bus (SpiBus.release bus)
  | selectUpper (upper : Bool) (bus : β) :
    Answered (.selectUpper upper) bus (SpiBus.selectUpper upper bus)
  | delay (microseconds : UInt32) (bus : β) :
    Answered (.delay microseconds) bus (SpiBus.delay microseconds bus)

/-- The calls that a bus can go through from its present state, and where they lead. -/
inductive Replays (start : β) : List BusCall → β → Prop where
  | start : Replays start [] start
  | next {calls : List BusCall} {call : BusCall} {bus bus' : β} (before : Replays start calls bus)
    (answered : call.Answered bus bus') : Replays start (calls ++ [call]) bus'

/-- The bus without its trace, which tells how the bus came from its first state. -/
structure Traced.Forgets (start : β) (traced : Traced β) (bus : β) : Prop where
  same : traced.bus = bus
  replays : Replays start traced.calls bus

/-- Noting the calls changes nothing of what they do. -/
theorem Traced.busSimulation_forgets (start : β) :
    BusSimulation (Forgets start : Traced β → β → Prop) where
  transfer request := by
    rintro ⟨bus, calls⟩ _ ⟨rfl, replays⟩
    cases h : SpiBus.transfer request bus with
    | ok bytes bus' =>
      rw [transfer_of_ok h]
      exact .ok ⟨rfl, replays.next (.received h)⟩
    | error cause bus' =>
      rw [transfer_of_error h]
      exact .error ⟨rfl, replays.next (.failed h)⟩
  maxWrite h := congrArg SpiBus.maxWrite h.same
  release := by
    rintro _ bus ⟨rfl, replays⟩
    exact ⟨rfl, replays.next (.release _)⟩
  selectUpper upper := by
    rintro _ bus ⟨rfl, replays⟩
    exact ⟨rfl, replays.next (.selectUpper upper _)⟩
  delay microseconds := by
    rintro _ bus ⟨rfl, replays⟩
    exact ⟨rfl, replays.next (.delay microseconds _)⟩

end Replay

namespace Driver

variable {β α : Type}

/-- The driver over a bus on which no call has been noted yet. -/
def traced (d : Driver β) : Driver (Traced β) :=
  ⟨⟨d.bus, []⟩, d.state⟩

/-- The calls that an operation makes, in their order and whatever its result. -/
def callsOf (x : Action (Traced β) α) (d : Driver β) : List BusCall :=
  (stateAfter (x d.traced)).bus.calls

section Forget

variable [SpiBus β] {x : Action (Traced β) α} {y : Action β α} {d : Driver β}
  {d' : Driver (Traced β)} (hxy : Simulates (Alike (Traced.Forgets d.bus)) x y)
include hxy

theorem agree_traced : Agree (Alike (Traced.Forgets d.bus)) (x d.traced) (y d) :=
  hxy ⟨⟨rfl, .start⟩, rfl⟩

theorem ok_of_traced {value : α} (h : x d.traced = .ok value d') :
    y d = .ok value ⟨d'.bus.bus, d'.state⟩ ∧ callsOf x d = d'.bus.calls := by
  have hagree := agree_traced hxy
  rw [callsOf, h] at *
  generalize y d = r at hagree
  cases hagree with
  | ok states => exact ⟨by rw [states.bus.same, states.state], rfl⟩

theorem error_of_traced {cause : Error} (h : x d.traced = .error cause d') :
    y d = .error cause ⟨d'.bus.bus, d'.state⟩ ∧ callsOf x d = d'.bus.calls := by
  have hagree := agree_traced hxy
  rw [callsOf, h] at *
  generalize y d = r at hagree
  cases hagree with
  | error states => exact ⟨by rw [states.bus.same, states.state], rfl⟩

/-- The calls noted are calls that the bus itself goes through. -/
theorem replays_callsOf : Replays d.bus (callsOf x d) (stateAfter (y d)).bus := by
  have hagree := agree_traced hxy
  rw [callsOf]
  generalize x d.traced = r at hagree
  generalize y d = r' at hagree
  cases hagree with
  | ok states => exact states.bus.replays
  | error states => exact states.bus.replays

end Forget

end Driver

end NorFlash
