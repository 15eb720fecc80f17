import NorFlash.Bench.ScriptedFlash
import NorFlash.Proofs.Bytes

/-!
What a read of a flash device does with the raw flash below it, whatever that answers: which raw
reads are made, when the read succeeds, and what the buffer of the caller holds afterwards.
-/
namespace NorFlash.Block

/-- The start of a scratch buffer is what was put there last. -/
theorem Scratch.take_put (bytes : ByteArray) (scratch : Scratch) :
    (scratch.put bytes).take bytes.size = bytes := by
  have hcovers : (Bytes.overlay scratch.written 0 bytes).size - bytes.size +
      bytes.size = (Bytes.overlay scratch.written 0 bytes).size := by
    have hsize := congrArg List.length (Bytes.toList_overlay scratch.written 0 bytes)
    simp only [List.length_append, Bytes.length_toList] at hsize
    omega
  have hrest : bytes.size - (Bytes.overlay scratch.written 0 bytes).size = 0 := by omega
  apply Bytes.toList_injective
  rw [take, put, Bytes.toList_resize, hrest, List.replicate_zero, List.append_nil,
    Bytes.toList_overlay, List.take_zero, List.nil_append,
    List.take_left' (Bytes.length_toList bytes)]

variable {ρ : Type} [RawFlash ρ]

/-- A raw read that was made: at which address and into which buffer, what it answered, and how it
left the buffer. -/
structure RawCall where
  address : Nat
  given : ByteArray
  answer : Except Error Nat
  filled : ByteArray

namespace RawCall

/-- The call claims something, and no more than its buffer takes. -/
def isSound (call : RawCall) : Bool :=
  match call.answer with
  | .ok count => 0 < count ∧ count ≤ call.given.size
  | .error _ => false

/-- The count of bytes that the call claims to have read. -/
def count (call : RawCall) : Nat :=
  match call.answer with
  | .ok count => count
  | .error _ => 0

/-- The prefix of its buffer that the call claims. -/
def claimed (call : RawCall) : ByteArray :=
  Bytes.slice call.filled 0 call.count

/-- The bytes that calls claim altogether. -/
def total : List RawCall → Nat
  | [] => 0
  | call :: calls => call.count + total calls

@[simp] theorem total_nil : total [] = 0 :=
  rfl

@[simp] theorem total_cons (call : RawCall) (calls : List RawCall) :
    total (call :: calls) = call.count + total calls :=
  rfl

/-- The claimed prefixes one behind the other. -/
def joined : List RawCall → ByteArray
  | [] => .empty
  | call :: calls => call.claimed ++ joined calls

@[simp] theorem joined_nil : joined [] = .empty :=
  rfl

@[simp] theorem joined_cons (call : RawCall) (calls : List RawCall) :
    joined (call :: calls) = call.claimed ++ joined calls :=
  rfl

/-- Calls the raw flash with the first `request` bytes of the scratch buffer, which keep their
number whatever is put there. -/
def make (address request : Nat) : Scratch × ρ → RawCall × (Scratch × ρ)
  | (scratch, raw) =>
    let given := scratch.take request
    match RawFlash.read address (given, raw) with
    | .ok count (buffer, raw) =>
      let filled := Bytes.resize buffer request
      (⟨address, given, .ok count, filled⟩, (scratch.put filled, raw))
    | .error cause (buffer, raw) =>
      let filled := Bytes.resize buffer request
      (⟨address, given, .error cause, filled⟩, (scratch.put filled, raw))

section Make

variable (address request : Nat) (state : Scratch × ρ)

@[simp] theorem address_make : (make address request state).1.address = address := by
  unfold make
  dsimp only
  split <;> rfl

@[simp] theorem size_given_make : (make address request state).1.given.size = request := by
  unfold make
  dsimp only
  split <;> exact Bytes.size_resize ..

/-- What the call leaves is in the scratch buffer. -/
theorem filled_make :
    (make address request state).1.filled = (make address request state).2.1.take request := by
  have hkept (buffer : ByteArray) : Bytes.resize buffer request =
      (state.1.put (Bytes.resize buffer request)).take request := by
    have hput := Scratch.take_put (Bytes.resize buffer request) state.1
    rw [Bytes.size_resize] at hput
    exact hput.symm
  unfold make
  dsimp only
  split <;> exact hkept _

/-- A raw read does not change how long the scratch buffer is. -/
@[simp] theorem length_make : (make address request state).2.1.length = state.1.length := by
  unfold make
  dsimp only
  split <;> rfl

theorem make_of_ok {address request count : Nat} {buffer : ByteArray} {scratch : Scratch}
    {raw raw' : ρ}
    (h : RawFlash.read address (scratch.take request, raw) = .ok count (buffer, raw')) :
    make address request (scratch, raw) =
      (⟨address, scratch.take request, .ok count, Bytes.resize buffer request⟩,
        (scratch.put (Bytes.resize buffer request), raw')) := by
  rw [make]
  dsimp only
  rw [h]

/-- A read of the device into its scratch buffer is such a call. -/
theorem rawRead_eq_make : FlashDevice.rawRead address request state =
    match (make address request state).1.answer with
    | .ok count => .ok count (make address request state).2
    | .error cause => .error cause (make address request state).2 := by
  obtain ⟨scratch, raw⟩ := state
  rw [FlashDevice.rawRead, make]
  dsimp only
  cases RawFlash.read address (scratch.take request, raw) <;> rfl

end Make

theorem count_of_isSound {call : RawCall} (h : call.isSound = true) :
    0 < call.count ∧ call.count ≤ call.given.size := by
  unfold isSound at h
  unfold count
  cases hanswer : call.answer with
  | ok count => simpa [hanswer] using h
  | error cause => simp [hanswer] at h

/-- A sound claim lies in the part of the scratch buffer that the call was given. -/
theorem claimed_make {address request : Nat} {state : Scratch × ρ}
    (h : (make address request state).1.isSound = true) :
    (make address request state).1.claimed =
      (make address request state).2.1.take (make address request state).1.count := by
  have hle := (count_of_isSound h).2
  rw [size_given_make] at hle
  rw [claimed, filled_make, Scratch.take, Bytes.slice_resize _ hle, Scratch.take]

theorem size_claimed_make {address request : Nat} {state : Scratch × ρ}
    (h : (make address request state).1.isSound = true) :
    (make address request state).1.claimed.size = (make address request state).1.count := by
  rw [claimed_make h, Scratch.take, Bytes.size_resize]

end RawCall

open RawCall in
/-- Raw reads made one after the other on the same scratch buffer and raw flash. -/
inductive RawCalls : Scratch × ρ → List RawCall → Scratch × ρ → Prop
  | none (state : Scratch × ρ) : RawCalls state [] state
  | next {state after : Scratch × ρ} {calls : List RawCall} (address request : Nat)
      (rest : RawCalls (make address request state).2 calls after) :
      RawCalls state ((make address request state).1 :: calls) after

/-- Calls that serve a read of `left` bytes from a position on: each begins where the claims of the
earlier ones end and asks for what is left, or as much as the scratch buffer takes. -/
def Scheduled (position left scratch : Nat) (calls : List RawCall) : Prop :=
  ∀ earlier call later, calls = earlier ++ call :: later →
    call.address = position + RawCall.total earlier ∧ call.address < UInt32.size ∧
      call.given.size = min (left - RawCall.total earlier) scratch

theorem Scheduled.nil (position left scratch : Nat) : Scheduled position left scratch [] := by
  intro earlier call later h
  exact absurd h (by simp)

theorem Scheduled.cons {position left scratch : Nat} {call : RawCall} {calls : List RawCall}
    (haddress : call.address = position) (hlow : position < UInt32.size)
    (hrequest : call.given.size = min left scratch)
    (hrest : Scheduled (position + call.count) (left - call.count) scratch calls) :
    Scheduled position left scratch (call :: calls) := by
  intro earlier later_call later h
  cases earlier with
  | nil =>
    obtain ⟨rfl, rfl⟩ := List.cons.inj h
    exact ⟨haddress, haddress ▸ hlow, hrequest⟩
  | cons first earlier =>
    obtain ⟨rfl, hrest_eq⟩ := List.cons.inj h
    obtain ⟨hat, hfits, hasked⟩ := hrest earlier later_call later hrest_eq
    rw [RawCall.total_cons]
    exact ⟨by omega, hfits, by omega⟩

namespace FlashDevice

section FirstCall

variable (left : Nat) (window : Window) (device : FlashDevice ρ)

/-- The raw call that fetching `left` bytes begins with. -/
def firstCall : RawCall :=
  (RawCall.make window.position (min left device.scratch.length)
    (device.scratch, device.raw)).1

/-- The device after that call. -/
def afterFirst : FlashDevice ρ :=
  let state := (RawCall.make window.position (min left device.scratch.length)
    (device.scratch, device.raw)).2
  { device with scratch := state.1, raw := state.2 }

theorem address_firstCall : (device.firstCall left window).address = window.position :=
  RawCall.address_make ..

theorem size_given_firstCall :
    (device.firstCall left window).given.size = min left device.scratch.length :=
  RawCall.size_given_make ..

@[simp] theorem length_afterFirst :
    (device.afterFirst left window).scratch.length = device.scratch.length :=
  RawCall.length_make ..

variable {left window device} in
theorem count_firstCall (hsound : (device.firstCall left window).isSound = true) :
    0 < (device.firstCall left window).count ∧ (device.firstCall left window).count ≤ left := by
  obtain ⟨hpos, hle⟩ := RawCall.count_of_isSound hsound
  rw [size_given_firstCall] at hle
  exact ⟨hpos, Nat.le_trans hle (Nat.min_le_left ..)⟩

variable {left window device} in
theorem size_claimed_firstCall (hsound : (device.firstCall left window).isSound = true) :
    (device.firstCall left window).claimed.size = (device.firstCall left window).count :=
  RawCall.size_claimed_make hsound

/-- One fetch is one raw call, if the cursor is in the range of addresses. -/
theorem fetchOnce_eq :
    fetchOnce left (window, device) =
      if UInt32.size ≤ window.position then
        .error .deviceFailure (window, device)
      else if (device.firstCall left window).isSound = true then
        .ok (device.firstCall left window).claimed
          (window.advance (device.firstCall left window).count, device.afterFirst left window)
      else
        .error .deviceFailure (window, device.afterFirst left window) := by
  obtain ⟨key, spec, scratch, raw⟩ := device
  by_cases hhigh : UInt32.size ≤ window.position
  · rw [fetchOnce, if_pos hhigh, if_pos hhigh]
  · have hread := RawCall.rawRead_eq_make window.position (min left scratch.length) (scratch, raw)
    have hsize := RawCall.size_given_make window.position (min left scratch.length) (scratch, raw)
    have hclaimed := @RawCall.claimed_make ρ _ window.position (min left scratch.length)
      (scratch, raw)
    rw [fetchOnce, if_neg hhigh, if_neg hhigh, hread]
    unfold firstCall afterFirst
    dsimp only
    generalize RawCall.make window.position (min left scratch.length) (scratch, raw) = made
      at hsize hclaimed ⊢
    obtain ⟨⟨address, given, answer, filled⟩, after⟩ := made
    cases answer with
    | error cause => rfl
    | ok count =>
      have hrequest : given.size = min left scratch.length := hsize
      rw [← hrequest]
      by_cases hsound : 0 < count ∧ count ≤ given.size
      · have hcall : RawCall.isSound ⟨address, given, .ok count, filled⟩ = true :=
          decide_eq_true hsound
        simp only [hcall, ↓reduceIte, if_pos hsound, hclaimed hcall]
        rfl
      · have hcall : RawCall.isSound ⟨address, given, .ok count, filled⟩ = false :=
          decide_eq_false hsound
        simp only [hcall, Bool.false_eq_true, ↓reduceIte, if_neg hsound]

end FirstCall

section Loop

variable {left : Nat} (done : Nat) (buffer : ByteArray) {window : Window} {device : FlashDevice ρ}

theorem fetchFrom_zero (state : Window × FlashDevice ρ) :
    fetchFrom 0 done buffer state = ((.ok done, buffer), state) := by
  rw [fetchFrom, if_pos rfl]

theorem fetchFrom_outside (hleft : 0 < left) (hhigh : UInt32.size ≤ window.position) :
    fetchFrom left done buffer (window, device) =
      ((.error .deviceFailure, buffer), (window, device)) := by
  rw [fetchFrom, if_neg (Nat.ne_of_gt hleft), fetchOnce_eq, if_pos hhigh]

theorem fetchFrom_refused (hleft : 0 < left) (hlow : window.position < UInt32.size)
    (hunsound : (device.firstCall left window).isSound = false) :
    fetchFrom left done buffer (window, device) =
      ((.error .deviceFailure, buffer), (window, device.afterFirst left window)) := by
  rw [fetchFrom, if_neg (Nat.ne_of_gt hleft), fetchOnce_eq, if_neg (Nat.not_le_of_lt hlow),
    hunsound]
  rfl

theorem fetchFrom_served (hleft : 0 < left) (hlow : window.position < UInt32.size)
    (hsound : (device.firstCall left window).isSound = true) :
    fetchFrom left done buffer (window, device) =
      fetchFrom (left - (device.firstCall left window).count)
        (done + (device.firstCall left window).count)
        (Bytes.overlay buffer done (device.firstCall left window).claimed)
        (window.advance (device.firstCall left window).count, device.afterFirst left window) := by
  have hsize := size_claimed_firstCall hsound
  have hcount := (count_firstCall hsound).1
  rw [fetchFrom, if_neg (Nat.ne_of_gt hleft), fetchOnce_eq, if_neg (Nat.not_le_of_lt hlow),
    if_pos hsound]
  dsimp only
  rw [hsize, if_neg (Nat.ne_of_gt hcount)]

end Loop

/-- How fetching `left` more bytes behind the first `done` of a buffer has gone: the calls that
served it, and the one that failed it if there was one. -/
structure Fetched (left done : Nat) (buffer : ByteArray) (window : Window)
    (device : FlashDevice ρ) (served : List RawCall) (failed : Option RawCall)
    (result : (Except Error Nat × ByteArray) × (Window × FlashDevice ρ)) : Prop where
  calls : RawCalls (device.scratch, device.raw) (served ++ failed.toList)
    (result.2.2.scratch, result.2.2.raw)
  scheduled : Scheduled window.position left device.scratch.length (served ++ failed.toList)
  served_sound : ∀ call ∈ served, call.isSound = true
  failed_unsound : ∀ call ∈ failed, call.isSound = false
  outcome : (result.1.1 = .ok (done + left) ∧ failed = none ∧ RawCall.total served = left) ∨
    (result.1.1 = .error .deviceFailure ∧ RawCall.total served < left ∧
      (failed = none → UInt32.size ≤ window.position + RawCall.total served))
  size_joined : (RawCall.joined served).size = RawCall.total served
  buffer_eq : result.1.2 = Bytes.overlay buffer done (RawCall.joined served)
  window_eq : result.2.1 = window.advance (RawCall.total served)

namespace Fetched

variable {left done : Nat} {buffer : ByteArray} {window : Window} {device : FlashDevice ρ}

theorem finished (done : Nat) (buffer : ByteArray) (window : Window) (device : FlashDevice ρ) :
    Fetched 0 done buffer window device [] none ((.ok done, buffer), (window, device)) where
  calls := .none _
  scheduled := .nil _ _ _
  served_sound := by simp
  failed_unsound := by simp
  outcome := .inl ⟨rfl, rfl, rfl⟩
  size_joined := rfl
  buffer_eq := (Bytes.overlay_empty buffer done).symm
  window_eq := rfl

/-- The cursor has left the range of 32-bit addresses, and no call is made. -/
theorem outside (hleft : 0 < left) (hhigh : UInt32.size ≤ window.position) :
    Fetched left done buffer window device [] none
      ((.error .deviceFailure, buffer), (window, device)) where
  calls := .none _
  scheduled := .nil _ _ _
  served_sound := by simp
  failed_unsound := by simp
  outcome := .inr ⟨rfl, hleft, fun _ => hhigh⟩
  size_joined := rfl
  buffer_eq := (Bytes.overlay_empty buffer done).symm
  window_eq := rfl

/-- The first call delivers nothing that can be used. -/
theorem refused (hleft : 0 < left) (hlow : window.position < UInt32.size)
    (hunsound : (device.firstCall left window).isSound = false) :
    Fetched left done buffer window device [] (some (device.firstCall left window))
      ((.error .deviceFailure, buffer), (window, device.afterFirst left window)) where
  calls := .next _ _ (.none _)
  scheduled := .cons (address_firstCall ..) hlow (size_given_firstCall ..) (.nil _ _ _)
  served_sound := by simp
  failed_unsound := by simpa using hunsound
  outcome := .inr ⟨rfl, hleft, by simp⟩
  size_joined := rfl
  buffer_eq := (Bytes.overlay_empty buffer done).symm
  window_eq := rfl

/-- The first call delivers something, and the rest is fetched behind it. -/
theorem served {served : List RawCall} {failed : Option RawCall}
    {result : (Except Error Nat × ByteArray) × (Window × FlashDevice ρ)}
    (hroom : done + left ≤ buffer.size) (hlow : window.position < UInt32.size)
    (hsound : (device.firstCall left window).isSound = true)
    (hrest : Fetched (left - (device.firstCall left window).count)
      (done + (device.firstCall left window).count)
      (Bytes.overlay buffer done (device.firstCall left window).claimed)
      (window.advance (device.firstCall left window).count) (device.afterFirst left window)
      served failed result) :
    Fetched left done buffer window device (device.firstCall left window :: served) failed
      result := by
  have hcount := (count_firstCall hsound).2
  have hsize := size_claimed_firstCall hsound
  have hposition := window.position_advance (device.firstCall left window).count
  constructor
  case calls => exact .next _ _ hrest.calls
  case scheduled =>
    have hscheduled := hrest.scheduled
    rw [hposition, length_afterFirst] at hscheduled
    exact .cons (address_firstCall ..) hlow (size_given_firstCall ..) hscheduled
  case served_sound =>
    intro call hcall
    rcases List.mem_cons.mp hcall with rfl | hlater
    · exact hsound
    · exact hrest.served_sound call hlater
  case failed_unsound => exact hrest.failed_unsound
  case outcome =>
    rw [RawCall.total_cons]
    rcases hrest.outcome with ⟨hok, hnone, htotal⟩ | ⟨herror, htotal, hnone⟩
    · left
      refine ⟨?_, hnone, by omega⟩
      rw [hok, Nat.add_assoc, Nat.add_sub_of_le hcount]
    · right
      refine ⟨herror, by omega, fun h => ?_⟩
      have hhigh := hnone h
      omega
  case size_joined =>
    rw [RawCall.joined_cons, ByteArray.size_append, hsize, hrest.size_joined, RawCall.total_cons]
  case buffer_eq =>
    rw [hrest.buffer_eq, ← hsize, Bytes.overlay_overlay (by omega), RawCall.joined_cons]
  case window_eq =>
    rw [hrest.window_eq, RawCall.total_cons, Window.advance_advance]

end Fetched

/-- The calls of the loop, by induction on the bytes that are left. -/
theorem fetchFrom_fetched (left done : Nat) (buffer : ByteArray) (window : Window)
    (device : FlashDevice ρ) (hroom : done + left ≤ buffer.size) :
    ∃ served failed, Fetched left done buffer window device served failed
      (fetchFrom left done buffer (window, device)) := by
  induction left using Nat.strongRecOn generalizing done buffer window device with
  | _ left ih =>
    rcases Nat.eq_zero_or_pos left with rfl | hleft
    · rw [fetchFrom_zero]
      exact ⟨[], none, .finished done buffer window device⟩
    rcases Nat.lt_or_ge window.position UInt32.size with hlow | hhigh
    · cases hsound : (device.firstCall left window).isSound with
      | false =>
        rw [fetchFrom_refused done buffer hleft hlow hsound]
        exact ⟨[], some _, .refused hleft hlow hsound⟩
      | true =>
        obtain ⟨hpos, hle⟩ := count_firstCall hsound
        have hsize : (Bytes.overlay buffer done (device.firstCall left window).claimed).size =
            buffer.size :=
          Bytes.size_overlay (by rw [size_claimed_firstCall hsound]; omega)
        obtain ⟨served, failed, hrest⟩ := ih (left - (device.firstCall left window).count)
          (by omega) (done + (device.firstCall left window).count)
          (Bytes.overlay buffer done (device.firstCall left window).claimed)
          (window.advance (device.firstCall left window).count)
          (device.afterFirst left window) (by omega)
        rw [fetchFrom_served done buffer hleft hlow hsound]
        exact ⟨_ :: served, failed, hrest.served hroom hlow hsound⟩
    · rw [fetchFrom_outside done buffer hleft hhigh]
      exact ⟨[], none, .outside hleft hhigh⟩

/-- A read fills the whole buffer or fails as a device, whatever the raw flash answers. The raw
calls it makes follow one another without gap or overlap; it succeeds exactly when each of them is
sound and the cursor stays in the range of addresses while bytes are missing. It then has filled
the buffer with what the calls claimed. A call that is not sound is the last one, and a read that
fails leaves the part of the buffer behind what was claimed before as it was. The cursor moves by
what was claimed. -/
theorem readInto_all_or_nothing (buffer : ByteArray) (window : Window) (device : FlashDevice ρ) :
    ∃ served failed outcome buffer' window' device',
      readInto buffer (window, device) = ((outcome, buffer'), (window', device')) ∧
      RawCalls (device.scratch, device.raw) (served ++ failed.toList)
        (device'.scratch, device'.raw) ∧
      Scheduled (window.base + window.cursor) buffer.size device.scratch.length
        (served ++ failed.toList) ∧
      (∀ call ∈ served, call.isSound = true) ∧ (∀ call ∈ failed, call.isSound = false) ∧
      (outcome = .ok buffer.size ∨ outcome = .error .deviceFailure) ∧
      (outcome = .ok buffer.size ↔ failed = none ∧ (RawCall.total served < buffer.size →
        window.base + window.cursor + RawCall.total served < UInt32.size)) ∧
      window' = { window with cursor := window.cursor + RawCall.total served } ∧
      (outcome = .ok buffer.size →
        RawCall.total served = buffer.size ∧ buffer' = RawCall.joined served) ∧
      (outcome = .error .deviceFailure → buffer'.size = buffer.size ∧
        Bytes.slice buffer' 0 (RawCall.total served) = RawCall.joined served ∧
        ∀ i, RawCall.total served ≤ i → Bytes.byteAt buffer' i = Bytes.byteAt buffer i) := by
  obtain ⟨served, failed, h⟩ := fetchFrom_fetched buffer.size 0 buffer window device
    (Nat.le_of_eq (Nat.zero_add _))
  rw [← readInto] at h
  generalize readInto buffer (window, device) = result at h
  obtain ⟨⟨outcome, buffer'⟩, ⟨window', device'⟩⟩ := result
  refine ⟨served, failed, outcome, buffer', window', device', rfl, h.calls, h.scheduled,
    h.served_sound, h.failed_unsound, ?_⟩
  obtain rfl := h.buffer_eq
  obtain rfl := h.window_eq
  have hposition : window.position = window.base + window.cursor := rfl
  have hroom : 0 + (RawCall.joined served).size ≤ buffer.size := by
    rw [h.size_joined]
    rcases h.outcome with ⟨-, -, htotal⟩ | ⟨-, htotal, -⟩ <;> omega
  rcases h.outcome with ⟨hok, hnone, htotal⟩ | ⟨herror, htotal, hnone⟩
  · dsimp only at hok
    rw [Nat.zero_add] at hok
    subst hok
    refine ⟨.inl rfl, ⟨fun _ => ⟨hnone, fun h => by omega⟩, fun _ => rfl⟩, rfl,
      fun _ => ⟨htotal, ?_⟩, ?_⟩
    · exact Bytes.overlay_all (Nat.le_of_eq (by rw [h.size_joined, htotal]))
    · exact fun h => absurd h (by simp)
  · dsimp only at herror
    subst herror
    refine ⟨.inr rfl, ⟨fun h => absurd h (by simp), fun ⟨hfailed, hinside⟩ => ?_⟩, rfl,
      fun h => absurd h (by simp), fun _ => ⟨Bytes.size_overlay hroom, ?_, fun i hi => ?_⟩⟩
    · have hhigh := hnone hfailed
      have hlow := hinside htotal
      omega
    · rw [← h.size_joined]
      exact Bytes.slice_overlay _ _
    · rw [Bytes.byteAt_overlay hroom, if_neg (by rw [h.size_joined]; omega)]

/-- Scripted flash below a scratch buffer of four bytes. -/
def scripted (script : List (Except Error Nat)) : FlashDevice Bench.ScriptedFlash :=
  ⟨7, ⟨⟨0, 4⟩, 4⟩, (4 : Nat), { script }⟩

/-- Six bytes are read in three calls, none of which delivers all that it was asked for but the
last. Where this one fails instead, the three bytes before it have been read. -/
theorem readInto_all_or_nothing_scripted :
    let buffer := Bytes.ofList (List.replicate 6 0xee)
    let read (last : Except Error Nat) :=
      readInto buffer (⟨8, 16, 1⟩, scripted [.ok 1, .ok 2, last])
    (∃ served device', read (.ok 3) = ((.ok 6, RawCall.joined served), (⟨8, 16, 7⟩, device')) ∧
      RawCalls ((4 : Nat), { script := [.ok 1, .ok 2, .ok 3] }) served
        (device'.scratch, device'.raw) ∧
      Scheduled 9 6 4 served) ∧
    ∃ served failed buffer' device',
      read (.error .transferTimeout) = ((.error .deviceFailure, buffer'), (⟨8, 16, 4⟩, device')) ∧
      RawCalls ((4 : Nat), { script := [.ok 1, .ok 2, .error .transferTimeout] })
        (served ++ [failed]) (device'.scratch, device'.raw) ∧
      failed.isSound = false ∧ Bytes.slice buffer' 0 3 = RawCall.joined served ∧
      Bytes.byteAt buffer' 3 = 0xee := by
  intro buffer read
  constructor
  · obtain ⟨served, failed, outcome, buffer', window', device', hread, hcalls, hscheduled, -, -,
      houtcome, hiff, rfl, hfull, -⟩ :=
      readInto_all_or_nothing buffer ⟨8, 16, 1⟩ (scripted [.ok 1, .ok 2, .ok 3])
    have hsucceeds : (read (.ok 3)).1.1.toOption = some 6 := by decide +kernel
    have hsame := (congrArg (·.1.1.toOption) hread).symm.trans hsucceeds
    obtain rfl : outcome = .ok 6 := houtcome.resolve_right fun h => by
      rw [h] at hsame
      cases hsame
    obtain ⟨rfl, -⟩ := hiff.mp rfl
    obtain ⟨htotal, rfl⟩ := hfull rfl
    rw [htotal] at hread
    rw [Option.toList_none, List.append_nil] at hcalls hscheduled
    exact ⟨served, device', hread, hcalls, hscheduled⟩
  · obtain ⟨served, failed, outcome, buffer', window', device', hread, hcalls, -, -, hunsound,
      houtcome, hiff, rfl, -, hrest⟩ :=
      readInto_all_or_nothing buffer ⟨8, 16, 1⟩ (scripted [.ok 1, .ok 2, .error .transferTimeout])
    have hfails : (read (.error .transferTimeout)).1.1.toOption = none := by decide +kernel
    have hsame := (congrArg (·.1.1.toOption) hread).symm.trans hfails
    obtain rfl : outcome = .error .deviceFailure := houtcome.resolve_left fun h => by
      rw [h] at hsame
      cases hsame
    have hmoved : (read (.error .transferTimeout)).2.1.cursor = 1 + 3 := by decide +kernel
    have htotal : RawCall.total served = 3 :=
      Nat.add_left_cancel ((congrArg (·.2.1.cursor) hread).symm.trans hmoved)
    rw [htotal] at hread hiff hrest
    obtain ⟨-, hfront, hbehind⟩ := hrest rfl
    cases failed with
    | none => cases hiff.mpr ⟨rfl, fun _ => by decide⟩
    | some call =>
      exact ⟨served, call, buffer', device', hread, hcalls, hunsound call rfl, hfront,
        hbehind 3 (Nat.le_refl 3)⟩

/-- A device that is accepted has pages and room in its scratch buffer. -/
theorem pos_of_isValid {σ : Type} (device : FlashDevice σ) (h : device.isValid = true) :
    0 < device.spec.pageSize ∧ 0 < device.scratch.length := by
  simp only [isValid, isPowerOfTwo, Bool.and_eq_true, decide_eq_true_eq] at h
  obtain ⟨⟨⟨⟨hpage, -⟩, hbuffer⟩, -⟩, hscratch⟩ := h
  omega

section Serve

/-- Raw flash that serves a memory: from each of these states a read inside the memory fills its
buffer and leads to such a state again. -/
def Serves (memory : ByteArray) (ready : ρ → Prop) : Prop :=
  ∀ raw, ready raw → ∀ address buffer, address + ByteArray.size buffer ≤ memory.size →
    ∃ raw', RawFlash.read address (buffer, raw) =
      .ok buffer.size (Bytes.slice memory address buffer.size, raw') ∧ ready raw'

/-- Raw flash that delivers a memory: from each of these states a read inside the memory answers
with some of its bytes, at least one and no more than the buffer takes, and leads to such a state
again. What it leaves in the buffer behind them is open. -/
def Delivers (memory : ByteArray) (ready : ρ → Prop) : Prop :=
  ∀ raw, ready raw → ∀ address buffer, 0 < ByteArray.size buffer →
    address + ByteArray.size buffer ≤ memory.size →
    ∃ count filled raw', RawFlash.read address (buffer, raw) = .ok count (filled, raw') ∧
      (0 < count ∧ count ≤ buffer.size) ∧
      Bytes.slice filled 0 count = Bytes.slice memory address count ∧ ready raw'

variable {memory : ByteArray} {ready : ρ → Prop}

theorem Serves.delivers (h : Serves memory ready) : Delivers memory ready := by
  intro raw hready address buffer hsome hin
  obtain ⟨raw', hread, hready'⟩ := h raw hready address buffer hin
  have hfull : (Bytes.slice memory address buffer.size).size = buffer.size := by
    rw [Bytes.size_slice]
    omega
  have hwhole := Bytes.slice_self (Bytes.slice memory address buffer.size)
  rw [hfull] at hwhole
  exact ⟨buffer.size, _, raw', hread, ⟨hsome, Nat.le_refl _⟩, hwhole, hready'⟩

variable (h : Delivers memory ready) {left : Nat} {window : Window} {device : FlashDevice ρ}
include h

/-- The first call to raw flash that delivers claims bytes of the memory. -/
theorem Delivers.firstCall (hready : ready device.raw) (hleft : 0 < left)
    (hscratch : 0 < device.scratch.length) (hin : window.position + left ≤ memory.size) :
    (device.firstCall left window).isSound = true ∧
      (device.firstCall left window).claimed =
        Bytes.slice memory window.position (device.firstCall left window).count ∧
      ready (device.afterFirst left window).raw := by
  let request := min left device.scratch.length
  have hbuffer : (device.scratch.take request).size = request := Bytes.size_resize ..
  obtain ⟨count, filled, raw, hread, hcount, hfilled, hraw⟩ := h device.raw hready window.position
    (device.scratch.take request) (by omega) (by omega)
  have hle : count ≤ request := hbuffer ▸ hcount.2
  have hsize := congrArg ByteArray.size hfilled
  rw [Bytes.size_slice, Bytes.size_slice] at hsize
  unfold FlashDevice.firstCall afterFirst
  rw [RawCall.make_of_ok hread]
  refine ⟨decide_eq_true hcount, ?_, hraw⟩
  change Bytes.slice (Bytes.resize filled request) 0 count = Bytes.slice memory _ count
  rw [Bytes.slice_resize _ hle, Bytes.resize_of_le (by omega), hfilled]

/-- The loop over raw flash that delivers, by induction on the bytes that are left. -/
theorem Delivers.fetchFrom {done : Nat} {buffer : ByteArray} (hready : ready device.raw)
    (hscratch : 0 < device.scratch.length) (hin : window.position + left ≤ memory.size)
    (hlow : memory.size ≤ UInt32.size) (hroom : done + left ≤ buffer.size) :
    ∃ device', FlashDevice.fetchFrom left done buffer (window, device) =
        ((.ok (done + left),
          Bytes.overlay buffer done (Bytes.slice memory window.position left)),
          (window.advance left, device')) ∧
      device'.key = device.key ∧ device'.spec = device.spec ∧
      device'.scratch.length = device.scratch.length ∧ ready device'.raw := by
  induction left using Nat.strongRecOn generalizing done buffer window device with
  | _ left ih =>
    rcases Nat.eq_zero_or_pos left with rfl | hleft
    · refine ⟨device, ?_, rfl, rfl, rfl, hready⟩
      rw [fetchFrom_zero, Bytes.slice_zero, Bytes.overlay_empty]
      rfl
    · obtain ⟨hsound, hclaimed, hnext⟩ := h.firstCall hready hleft hscratch hin
      obtain ⟨hpos, hle⟩ := count_firstCall hsound
      let count := (device.firstCall left window).count
      have hsize : (device.firstCall left window).claimed.size = count :=
        size_claimed_firstCall hsound
      have hoverlay : (Bytes.overlay buffer done (device.firstCall left window).claimed).size =
          buffer.size := Bytes.size_overlay (by omega)
      have hposition := window.position_advance count
      obtain ⟨device', hrest, hkey, hspec, hlength, hready'⟩ := ih (left - count) (by omega)
        hnext (by rwa [length_afterFirst]) (show (window.advance count).position + _ ≤ _ by omega)
        (show done + count + (left - count) ≤ (Bytes.overlay buffer done
          (device.firstCall left window).claimed).size by omega)
      rw [length_afterFirst] at hlength
      refine ⟨device', ?_, hkey, hspec, hlength, hready'⟩
      have hdone : done + count + (left - count) = done + left := by omega
      have hlaid : Bytes.overlay (Bytes.overlay buffer done (device.firstCall left window).claimed)
          (done + count) (Bytes.slice memory (window.advance count).position (left - count)) =
          Bytes.overlay buffer done (Bytes.slice memory window.position left) := by
        rw [← hsize, Bytes.overlay_overlay (by omega), hsize, hclaimed, hposition,
          Bytes.slice_append_slice, Nat.add_sub_of_le hle]
      rw [fetchFrom_served done buffer hleft (by omega) hsound, hrest, hdone, hlaid,
        Window.advance_advance, Nat.add_sub_of_le hle]

/-- A device over raw flash that delivers a memory reads as the memory does. -/
theorem Delivers.read (hready : ready device.raw) (hscratch : 0 < device.scratch.length)
    (hin : window.position + left ≤ memory.size) (hlow : memory.size ≤ UInt32.size) :
    ∃ device', FlashDevice.read left (window, device) =
        .ok (Bytes.slice memory window.position left) (window.advance left, device') ∧
      device'.key = device.key ∧ device'.spec = device.spec ∧
      device'.scratch.length = device.scratch.length ∧ ready device'.raw := by
  have hslice : (Bytes.slice memory window.position left).size = left := by
    rw [Bytes.size_slice]
    omega
  have hfill : (Bytes.fill left 0).size = left := Bytes.size_fill ..
  obtain ⟨device', hfetch, hdevice⟩ := h.fetchFrom hready hscratch hin hlow
    (show 0 + left ≤ (Bytes.fill left 0).size by omega)
  rw [Bytes.overlay_all (by omega)] at hfetch
  refine ⟨device', ?_, hdevice⟩
  rw [FlashDevice.read, readInto, hfill, hfetch]

end Serve

end FlashDevice

end NorFlash.Block
