import NorFlash.Bench.Registers
import NorFlash.Proofs.RegisterAccess
import NorFlash.Proofs.RegisterTrace

/-!
The register protocol of a transfer, over hardware that reads as it likes and does with a write
what it likes. Stale words are drained first, then the slave is selected, and every byte is
followed by its answer; a byte that spends its status checks ends the transfer there.
-/
namespace NorFlash.Controller

/-- Words that are read and dropped, each after a status that shows one. -/
inductive Drained : Nat → List RegisterCall → Prop where
  | nothing : Drained 0 []
  | word {reads : Nat} {calls : List RegisterCall} {status stale : UInt32}
    (filled : status &&& StatusBit.receiveEmpty = 0) (rest : Drained reads calls) :
    Drained (reads + 1) (.read Register.status status :: .read Register.receive stale :: calls)

/-- Status checks that show no answer, each with a wait of 1 µs behind it. -/
inductive Unanswered : Nat → List RegisterCall → Prop where
  | nothing : Unanswered 0 []
  | check {checks : Nat} {calls : List RegisterCall} {status : UInt32}
    (empty : status &&& StatusBit.receiveEmpty ≠ 0) (rest : Unanswered checks calls) :
    Unanswered (checks + 1) (.read Register.status status :: .delay 1 :: calls)

/-- Bytes that are sent one by one, each after the answer to the byte before it is read. The calls
end with the last answer, or with a byte that has spent its status checks. -/
inductive Shifted (budget : Nat) : (sent : List UInt8) → (calls : List RegisterCall) →
    (answers : List UInt8) → (spent : Bool) → Prop where
  | finished : Shifted budget [] [] [] false
  | spent {byte : UInt8} {bytes : List UInt8} {polls : List RegisterCall}
    (unanswered : Unanswered budget polls) :
    Shifted budget (byte :: bytes) (.write Register.transmit byte.toUInt32 :: polls) [] true
  | answered {byte : UInt8} {bytes answers : List UInt8} {polls calls : List RegisterCall}
    {checks : Nat} {status word : UInt32} {spent : Bool} (within : checks < budget)
    (unanswered : Unanswered checks polls) (filled : status &&& StatusBit.receiveEmpty = 0)
    (rest : Shifted budget bytes calls answers spent) :
    Shifted budget (byte :: bytes)
      (.write Register.transmit byte.toUInt32 :: polls ++
        [.read Register.status status, .read Register.receive word] ++ calls)
      (word.toUInt8 :: answers) spent

theorem Drained.writes_nothing {reads : Nat} {calls : List RegisterCall}
    (h : Drained reads calls) (register : Nat) (value : UInt32) :
    .write register value ∉ calls := by
  induction h with
  | nothing => exact List.not_mem_nil
  | word filled rest ih =>
    intro hwrite
    cases hwrite with
    | tail _ hwrite =>
      cases hwrite with
      | tail _ hwrite => exact ih hwrite

theorem Drained.length_calls {reads : Nat} {calls : List RegisterCall} (h : Drained reads calls) :
    calls.length = 2 * reads := by
  induction h with
  | nothing => rfl
  | word filled rest ih =>
    simp only [List.length_cons, ih]
    omega

theorem Unanswered.length_calls {checks : Nat} {calls : List RegisterCall}
    (h : Unanswered checks calls) : calls.length = 2 * checks := by
  induction h with
  | nothing => rfl
  | check empty rest ih =>
    simp only [List.length_cons, ih]
    omega

/-- A byte takes a write, a status and a wait for every check, and a read in place of the last
wait if it is answered. -/
theorem Shifted.length_calls_le {budget : Nat} {sent answers : List UInt8}
    {calls : List RegisterCall} {spent : Bool} (h : Shifted budget sent calls answers spent) :
    calls.length ≤ sent.length * (2 * budget + 1) := by
  induction h with
  | finished => exact Nat.zero_le _
  | @spent byte bytes polls unanswered =>
    rw [List.length_cons, List.length_cons, unanswered.length_calls,
      Nat.add_one_mul bytes.length]
    omega
  | @answered byte bytes answers polls calls checks status word spent within unanswered =>
    simp only [List.length_append, List.length_cons, List.length_nil, unanswered.length_calls]
    rw [Nat.add_one_mul bytes.length]
    omega

/-- No more bytes are answered than are sent. -/
theorem Shifted.length_answers_le {budget : Nat} {sent answers : List UInt8}
    {calls : List RegisterCall} {spent : Bool} (h : Shifted budget sent calls answers spent) :
    answers.length ≤ sent.length := by
  induction h with
  | finished => exact Nat.le_refl _
  | spent unanswered => exact Nat.zero_le _
  | answered within unanswered filled rest ih => exact Nat.succ_le_succ ih

/-- The answers to the bytes of a transfer fit into its buffer, unless the buffer is too short. -/
theorem Shifted.length_answers_le_room {budget : Nat} {transfer : Transfer} {answers : List UInt8}
    {calls : List RegisterCall} {spent : Bool}
    (h : Shifted budget transfer.sent calls answers spent) (hshort : transfer.isShort = false)
    {room : Nat} (hroom : transfer.room = some room) : answers.length ≤ room := by
  have hanswers := h.length_answers_le
  rw [Transfer.length_sent] at hanswers
  rw [Transfer.isShort, Bool.or_eq_false_iff, hroom] at hshort
  exact Nat.le_trans hanswers (Nat.not_lt.mp (of_decide_eq_false hshort.2))

namespace Engine

variable {η : Type} [Hardware η]

/-- Watched engines before and after these calls. -/
structure Makes (calls : List RegisterCall) (engine after : Engine (Watched η)) : Prop where
  calls : after.hardware.calls = engine.hardware.calls ++ calls
  frequency : after.frequency = engine.frequency
  chipSelect : after.chipSelect = engine.chipSelect

namespace Makes

variable {calls more : List RegisterCall} {engine middle after : Engine (Watched η)}

omit [Hardware η] in
theorem nothing (engine : Engine (Watched η)) : Makes [] engine engine :=
  ⟨(List.append_nil _).symm, rfl, rfl⟩

omit [Hardware η] in
theorem trans (h : Makes calls engine middle) (hmore : Makes more middle after) :
    Makes (calls ++ more) engine after where
  calls := by rw [hmore.calls, h.calls, List.append_assoc]
  frequency := hmore.frequency.trans h.frequency
  chipSelect := hmore.chipSelect.trans h.chipSelect

theorem write (register : Nat) (value : UInt32) (engine : Engine (Watched η)) :
    Makes [.write register value] engine (engine.write register value) :=
  ⟨rfl, rfl, rfl⟩

theorem delay (microseconds : UInt32) (engine : Engine (Watched η)) :
    Makes [.delay microseconds] engine (engine.delay microseconds) :=
  ⟨rfl, rfl, rfl⟩

theorem read (register : Nat) (engine : Engine (Watched η)) :
    Makes [.read register (engine.read register).1] engine (engine.read register).2 :=
  ⟨rfl, rfl, rfl⟩

/-- A check reads the status register once. -/
theorem hasReceived (engine : Engine (Watched η)) :
    ∃ word after, engine.hasReceived = (decide (word &&& StatusBit.receiveEmpty = 0), after) ∧
      Makes [.read Register.status word] engine after :=
  ⟨_, _, rfl, read Register.status engine⟩

theorem opened (framing : Framing) (engine : Engine (Watched η)) :
    Makes (if framing.first then
        [.write Register.slaveSelect (selectWord engine.chipSelect)] else [])
      engine (if framing.first then engine.select else engine) := by
  split
  · exact write Register.slaveSelect (selectWord engine.chipSelect) engine
  · exact nothing engine

theorem closed (framing : Framing) (engine : Engine (Watched η)) :
    Makes (if framing.last then [.write Register.slaveSelect deselected] else []) engine
      (if framing.last then engine.deselect else engine) := by
  split
  · exact write Register.slaveSelect deselected engine
  · exact nothing engine

end Makes

/-- The drain ends at a status without a word, or has spent its reads. -/
theorem drain_calls (budget : Nat) (engine : Engine (Watched η)) :
    (∃ calls after, engine.drain budget = (.error .receiveNotEmpty, after) ∧
      Drained budget calls ∧ Makes calls engine after) ∨
    ∃ reads stale status after, engine.drain budget = (.ok (), after) ∧ reads < budget ∧
      Drained reads stale ∧ status &&& StatusBit.receiveEmpty ≠ 0 ∧
      Makes (stale ++ [.read Register.status status]) engine after := by
  induction budget generalizing engine with
  | zero => exact .inl ⟨[], engine, rfl, .nothing, .nothing engine⟩
  | succ budget ih =>
    obtain ⟨status, checked, hcheck, hchecked⟩ := Makes.hasReceived engine
    unfold drain
    rw [hcheck]
    by_cases hfilled : status &&& StatusBit.receiveEmpty = 0
    · have hread := hchecked.trans (.read Register.receive checked)
      rw [decide_eq_true hfilled]
      rcases ih (checked.read Register.receive).2 with
        ⟨calls, after, hdrain, hdrained, hafter⟩ |
        ⟨reads, stale, last, after, hdrain, hreads, hdrained, hempty, hafter⟩
      · exact .inl ⟨_, after, hdrain, .word hfilled hdrained, hread.trans hafter⟩
      · exact .inr ⟨reads + 1, _, last, after, hdrain, Nat.succ_lt_succ hreads,
          .word hfilled hdrained, hempty, hread.trans hafter⟩
    · rw [decide_eq_false hfilled]
      exact .inr ⟨0, [], status, checked, rfl, Nat.succ_pos _, .nothing, hfilled, hchecked⟩

/-- The wait for an answer ends at a status with a word, or has spent its checks. -/
theorem poll_calls (budget check : Nat) (engine : Engine (Watched η)) :
    (∃ polls after, Poll.untilReadyFrom 1 answered delay budget check engine =
        .ok .exhausted after ∧ Unanswered budget polls ∧ Makes polls engine after) ∨
    ∃ checks polls status after, Poll.untilReadyFrom 1 answered delay budget check engine =
        .ok (.ready (check + checks + 1)) after ∧ checks < budget ∧ Unanswered checks polls ∧
      status &&& StatusBit.receiveEmpty = 0 ∧
      Makes (polls ++ [.read Register.status status]) engine after := by
  induction budget generalizing check engine with
  | zero => exact .inl ⟨[], engine, rfl, .nothing, .nothing engine⟩
  | succ budget ih =>
    obtain ⟨status, checked, hcheck, hchecked⟩ := Makes.hasReceived engine
    rw [Poll.untilReadyFrom_succ, answered, hcheck]
    by_cases hfilled : status &&& StatusBit.receiveEmpty = 0
    · rw [decide_eq_true hfilled]
      exact .inr ⟨0, [], status, checked, rfl, Nat.succ_pos _, .nothing, hfilled, hchecked⟩
    · have hwaited := hchecked.trans (.delay 1 checked)
      rw [decide_eq_false hfilled]
      rcases ih (check + 1) (checked.delay 1) with
        ⟨polls, after, hpoll, hpolls, hafter⟩ |
        ⟨checks, polls, last, after, hpoll, hchecks, hpolls, hlast, hafter⟩
      · exact .inl ⟨_, after, hpoll, .check hfilled hpolls, hwaited.trans hafter⟩
      · have hnumber : check + 1 + checks + 1 = check + (checks + 1) + 1 := by omega
        rw [hnumber] at hpoll
        exact .inr ⟨checks + 1, _, last, after, hpoll, Nat.succ_lt_succ hchecks,
          .check hfilled hpolls, hlast, hwaited.trans hafter⟩

/-- One byte is written, and its answer read once a status shows it. -/
theorem shiftByte_calls (byte : UInt8) (budget : Nat) (engine : Engine (Watched η)) :
    (∃ polls after, shiftByte byte ⟨budget, 1⟩ engine = .error .transferTimeout after ∧
      Unanswered budget polls ∧
      Makes (.write Register.transmit byte.toUInt32 :: polls) engine after) ∨
    ∃ checks polls status word after, shiftByte byte ⟨budget, 1⟩ engine =
        .ok word.toUInt8 after ∧ checks < budget ∧ Unanswered checks polls ∧
      status &&& StatusBit.receiveEmpty = 0 ∧
      Makes (.write Register.transmit byte.toUInt32 :: polls ++
        [.read Register.status status, .read Register.receive word]) engine after := by
  have hsent := Makes.write Register.transmit byte.toUInt32 engine
  rw [shiftByte_eq]
  rcases poll_calls budget 0 (engine.write Register.transmit byte.toUInt32) with
    ⟨polls, after, hpoll, hpolls, hafter⟩ |
    ⟨checks, polls, status, polled, hpoll, hchecks, hpolls, hfilled, hpolled⟩
  · rw [hpoll]
    exact .inl ⟨polls, after, rfl, hpolls, hsent.trans hafter⟩
  · rw [hpoll]
    have hread := (hsent.trans hpolled).trans (.read Register.receive polled)
    refine .inr ⟨checks, polls, status, (polled.read Register.receive).1,
      (polled.read Register.receive).2, rfl, hchecks, hpolls, hfilled, ?_⟩
    simpa only [List.append_assoc, List.cons_append, List.nil_append] using hread

/-- The bytes numbered `i` and later, which stop at the first one that gets no answer. -/
theorem shiftFrom_calls (budget : Nat) (payload : Option ByteArray) (keep : Bool) (left i : Nat)
    (received : ByteArray) (engine : Engine (Watched η)) :
    ∃ calls answers spent after,
      shiftFrom ⟨budget, 1⟩ payload keep left i received engine =
        (⟨if spent then .error .transferTimeout else .ok (),
          if keep then received ++ Bytes.ofList answers else received⟩, after) ∧
      Shifted budget ((List.range' i left).map (Transfer.byteSent payload)) calls answers spent ∧
      Makes calls engine after := by
  have hnone (received : ByteArray) :
      received = if keep then received ++ Bytes.ofList [] else received := by
    cases keep with
    | false => rfl
    | true => exact Bytes.toList_injective (by simp)
  have hmore (received : ByteArray) (answer : UInt8) (answers : List UInt8) :
      (if keep then (if keep then received.push answer else received) ++ Bytes.ofList answers
        else if keep then received.push answer else received) =
        if keep then received ++ Bytes.ofList (answer :: answers) else received := by
    cases keep with
    | false => rfl
    | true => exact Bytes.toList_injective (by simp)
  induction left generalizing i received engine with
  | zero =>
    refine ⟨[], [], false, engine, ?_, .finished, .nothing engine⟩
    rw [← hnone]
    rfl
  | succ left ih =>
    rw [shiftFrom_succ, List.range'_succ, List.map_cons]
    rcases shiftByte_calls (Transfer.byteSent payload i) budget engine with
      ⟨polls, after, hshift, hpolls, hafter⟩ |
      ⟨checks, polls, status, word, shifted, hshift, hchecks, hpolls, hfilled, hshifted⟩
    · refine ⟨_, [], true, after, ?_, .spent hpolls, hafter⟩
      rw [hshift, ← hnone]
      rfl
    · obtain ⟨calls, answers, spent, after, hrest, hcalls, hafter⟩ :=
        ih (i + 1) (if keep then received.push word.toUInt8 else received) shifted
      refine ⟨_, word.toUInt8 :: answers, spent, after, ?_,
        .answered hchecks hpolls hfilled hcalls, hshifted.trans hafter⟩
      rw [hshift]
      dsimp only
      rw [hrest, hmore]

/-- The bytes of a transfer, and the release of the slave behind the last one unless the transfer
has stopped before. -/
theorem clock_calls (transfer : Transfer) (engine : Engine (Watched η)) :
    ∃ calls answers spent after, engine.clock transfer =
        (⟨if spent then .error .transferTimeout else .ok (),
          if transfer.room.isSome then Bytes.ofList answers else .empty⟩, after) ∧
      Shifted engine.byteTimeout transfer.sent calls answers spent ∧
      Makes (calls ++ if !spent && transfer.framing.last then
        [.write Register.slaveSelect deselected] else []) engine after := by
  obtain ⟨calls, answers, spent, shifted, hshift, hcalls, hshifted⟩ := shiftFrom_calls
    engine.byteTimeout transfer.payload transfer.room.isSome (transfer.bits / 8) 0 .empty engine
  rw [Transfer.map_byteSent] at hcalls
  have hempty : ByteArray.empty ++ Bytes.ofList answers = Bytes.ofList answers :=
    Bytes.toList_injective (by simp)
  rw [hempty] at hshift
  unfold clock
  rw [hshift]
  cases spent with
  | true =>
    refine ⟨calls, answers, true, shifted, rfl, hcalls, ?_⟩
    exact hshifted.trans (.nothing shifted)
  | false =>
    refine ⟨calls, answers, false, _, rfl, hcalls, ?_⟩
    exact hshifted.trans (.closed transfer.framing shifted)

/-- What a sound transfer of at least one byte asks of its hardware. -/
theorem run_calls {transfer : Transfer} (hpos : transfer.bits ≠ 0)
    (hwhole : transfer.bits % 8 = 0) (hshort : transfer.isShort = false)
    (engine : Engine (Watched η)) :
    (∃ calls after, engine.run transfer = (⟨.error .receiveNotEmpty, .empty⟩, after) ∧
      Drained drainBudget calls ∧ Makes calls engine after) ∨
    ∃ reads stale status shifts answers spent after,
      engine.run transfer =
        (⟨if spent then .error .transferTimeout else .ok (),
          if transfer.room.isSome then Bytes.ofList answers else .empty⟩, after) ∧
      reads < drainBudget ∧ Drained reads stale ∧ status &&& StatusBit.receiveEmpty ≠ 0 ∧
      Shifted engine.byteTimeout transfer.sent shifts answers spent ∧
      Makes (stale ++ [.read Register.status status] ++
        (if transfer.framing.first then
          [.write Register.slaveSelect (selectWord engine.chipSelect)] else []) ++
        shifts ++
        if !spent && transfer.framing.last then
          [.write Register.slaveSelect deselected] else []) engine after := by
  rw [run_of_sound hpos hwhole hshort]
  rcases drain_calls drainBudget engine with ⟨calls, after, hdrain, hdrained, hafter⟩ |
    ⟨reads, stale, status, drained, hdrain, hreads, hstale, hempty, hdrained⟩
  · rw [hdrain]
    exact .inl ⟨calls, after, rfl, hdrained, hafter⟩
  · rw [hdrain]
    have hopened := hdrained.trans (.opened transfer.framing drained)
    obtain ⟨shifts, answers, spent, after, hclock, hshifts, hafter⟩ := clock_calls transfer
      (if transfer.framing.first then drained.select else drained)
    have htimeout : byteTimeout (if transfer.framing.first then drained.select else drained) =
        engine.byteTimeout := by
      unfold byteTimeout
      rw [hopened.frequency]
    rw [htimeout] at hshifts
    rw [hdrained.chipSelect] at hopened
    refine .inr ⟨reads, stale, status, shifts, answers, spent, after, hclock, hreads, hstale,
      hempty, hshifts, ?_⟩
    have hall := hopened.trans hafter
    rwa [← List.append_assoc] at hall

theorem callsOf_of_run {transfer : Transfer} {engine : Engine η} {result : TransferRun}
    {calls : List RegisterCall} {after : Engine (Watched η)}
    (hrun : engine.watched.run transfer = (result, after))
    (hcalls : Makes calls engine.watched after) : engine.callsOf transfer = calls :=
  (congrArg (fun run => run.2.hardware.calls) hrun).trans hcalls.calls

/-- Whatever the hardware does, a transfer is over after so many calls. -/
theorem length_callsOf_le (transfer : Transfer) (engine : Engine η) :
    (engine.callsOf transfer).length ≤
      35 + transfer.bits / 8 * (2 * engine.byteTimeout + 1) := by
  have hone (condition : Bool) (call : RegisterCall) :
      (if condition then [call] else []).length ≤ 1 := by
    cases condition <;> simp
  by_cases hpos : transfer.bits = 0
  · have hrelease := hone transfer.framing.last (.write Register.slaveSelect deselected)
    rw [callsOf_of_run (run_of_nothing hpos _) (.closed transfer.framing _)]
    omega
  by_cases hwhole : transfer.bits % 8 = 0
  · cases hshort : transfer.isShort with
    | true =>
      rw [callsOf_of_run (run_of_short hpos hwhole hshort _) (.write _ _ _),
        List.length_singleton]
      omega
    | false =>
      rcases run_calls hpos hwhole hshort engine.watched with
        ⟨drained, after, hrun, hdrained, hafter⟩ |
        ⟨reads, stale, status, shifts, answers, spent, after, hrun, hreads, hstale, -, hshifts,
          hafter⟩
      · rw [callsOf_of_run hrun hafter, hdrained.length_calls, drainBudget]
        omega
      · have hbytes := hshifts.length_calls_le
        have hsame : engine.watched.byteTimeout = engine.byteTimeout := rfl
        have hselect := hone transfer.framing.first
          (.write Register.slaveSelect (selectWord engine.watched.chipSelect))
        have hrelease := hone (!spent && transfer.framing.last)
          (.write Register.slaveSelect deselected)
        rw [transfer.length_sent, hsame] at hbytes
        unfold drainBudget at hreads
        rw [callsOf_of_run hrun hafter]
        simp only [List.length_append, hstale.length_calls, List.length_singleton]
        omega
  · rw [callsOf_of_run (run_of_partial hwhole _) (.write _ _ _), List.length_singleton]
    omega

end Engine

/-- The register protocol of a transfer, over any hardware and with the calls that it really goes
through. A transfer of no bits and a rejected one touch the slave-select register at most. Any
other drains the receive queue first, and ends there without a write once it has spent 17 reads;
else it selects the slave if it opens the transaction, shifts its bytes, and releases the slave if
it closes the transaction and every byte was answered. The caller finds the answers at the start
of its buffer, also when a byte got none. -/
theorem transfer_keeps_protocol {η : Type} [Hardware η] (engine : Engine η)
    (hline : engine.chipSelect < lines) (transfer : Transfer) :
    let result := (engine.run transfer).1
    let calls := engine.callsOf transfer
    let release : RegisterCall := .write Register.slaveSelect 0xffffffff
    let select : RegisterCall :=
      .write Register.slaveSelect (~~~(1 <<< engine.chipSelect.toUInt32))
    Undergoes engine.hardware calls (engine.run transfer).2.hardware ∧
    (transfer.bits = 0 →
      result = ⟨.ok (), .empty⟩ ∧ calls = if transfer.framing.last then [release] else []) ∧
    (transfer.bits % 8 ≠ 0 → result = ⟨.error .partialByte, .empty⟩ ∧ calls = [release]) ∧
    (transfer.bits ≠ 0 → transfer.bits % 8 = 0 → transfer.isShort = true →
      result = ⟨.error .bufferTooSmall, .empty⟩ ∧ calls = [release]) ∧
    (transfer.bits ≠ 0 → transfer.bits % 8 = 0 → transfer.isShort = false →
      (Drained 17 calls ∧ (∀ register value, .write register value ∉ calls) ∧
        result = ⟨.error .receiveNotEmpty, .empty⟩) ∨
      ∃ reads stale status shifts answers spent,
        reads < 17 ∧ Drained reads stale ∧ status &&& StatusBit.receiveEmpty ≠ 0 ∧
        Shifted engine.byteTimeout transfer.sent shifts answers spent ∧
        calls = stale ++ [.read Register.status status] ++
          (if transfer.framing.first then [select] else []) ++ shifts ++
          (if !spent && transfer.framing.last then [release] else []) ∧
        result.outcome = (if spent then .error .transferTimeout else .ok ()) ∧
        result.received = (if transfer.room.isSome then Bytes.ofList answers else .empty) ∧
        ∀ buffer : ByteArray, transfer.room = some buffer.size →
          (Transfer.landed result.received buffer).size = buffer.size ∧
          Bytes.slice (Transfer.landed result.received buffer) 0 answers.length =
            Bytes.ofList answers ∧
          ∀ i, answers.length ≤ i →
            Bytes.byteAt (Transfer.landed result.received buffer) i =
              Bytes.byteAt buffer i) := by
  intro result calls release select
  obtain ⟨hresult, hundergoes⟩ := engine.run_watched transfer
  have hcalls {value : TransferRun} {made : List RegisterCall} {after : Engine (Watched η)}
      (hrun : engine.watched.run transfer = (value, after))
      (hmade : Engine.Makes made engine.watched after) : result = value ∧ calls = made := by
    constructor
    · exact hresult.symm.trans (congrArg Prod.fst hrun)
    · exact Engine.callsOf_of_run hrun hmade
  refine ⟨hundergoes, fun hnothing => ?_, fun hpartial => ?_, fun hpos hwhole hshort => ?_,
    fun hpos hwhole hsound => ?_⟩
  · exact hcalls (Engine.run_of_nothing hnothing _) (.closed transfer.framing _)
  · exact hcalls (Engine.run_of_partial hpartial _) (.write _ _ _)
  · exact hcalls (Engine.run_of_short hpos hwhole hshort _) (.write _ _ _)
  rcases Engine.run_calls hpos hwhole hsound engine.watched with
    ⟨drained, after, hrun, hdrained, hafter⟩ |
    ⟨reads, stale, status, shifts, answers, spent, after, hrun, hreads, hstale, hempty, hshifts,
      hafter⟩
  · obtain ⟨hvalue, hmade⟩ := hcalls hrun hafter
    rw [hmade]
    exact .inl ⟨hdrained, hdrained.writes_nothing, hvalue⟩
  · obtain ⟨hvalue, hmade⟩ := hcalls hrun hafter
    have hselect : selectWord engine.watched.chipSelect =
        ~~~(1 <<< engine.chipSelect.toUInt32) := if_pos hline
    rw [hselect] at hmade
    refine .inr ⟨reads, stale, status, shifts, answers, spent, hreads, hstale, hempty, hshifts,
      hmade, congrArg TransferRun.outcome hvalue, congrArg TransferRun.received hvalue, ?_⟩
    intro buffer hroom
    have hreceived : result.received = Bytes.ofList answers := by
      rw [hvalue, hroom]
      rfl
    rw [hreceived]
    exact Transfer.landed_ofList rfl (hshifts.length_answers_le_room hsound hroom)

/-- An engine over registers that hold a stale word, and show every answer at the second status
check only. Its clock allows two checks for a byte. -/
def laggingEngine : Engine Bench.ScriptedRegisters :=
  ⟨{ queue := [0xaa], lag := 1 }, 20000000, 3, default⟩

/-- A transfer of two bytes into a larger buffer. -/
def twoBytes : Transfer :=
  ⟨16, some (Bytes.ofList [0x9f, 0x05]), some 4, .once⟩

theorem transfer_keeps_protocol_laggingEngine :
    laggingEngine.chipSelect < lines ∧ (laggingEngine.run twoBytes).1.outcome.isOk ∧
      ∃ reads stale status shifts answers, Drained reads stale ∧
        Shifted 2 [0x9f, 0x05] shifts answers false ∧
        laggingEngine.callsOf twoBytes = stale ++ [.read Register.status status] ++
          [.write Register.slaveSelect 0xfffffff7] ++ shifts ++
          [.write Register.slaveSelect 0xffffffff] ∧
        Bytes.slice (Transfer.landed (laggingEngine.run twoBytes).1.received
          (Bytes.ofList [1, 2, 3, 4])) 0 answers.length = Bytes.ofList answers := by
  have hok : (laggingEngine.run twoBytes).1.outcome.isOk := by decide +kernel
  have hsent : twoBytes.sent = [0x9f, 0x05] := by decide
  have htimeout : laggingEngine.byteTimeout = 2 := by decide
  have hselect : ~~~(1 <<< laggingEngine.chipSelect.toUInt32) = 0xfffffff7 := by decide
  have hline : laggingEngine.chipSelect < lines := by decide
  obtain ⟨-, -, -, -, hsound⟩ := transfer_keeps_protocol laggingEngine hline twoBytes
  rw [hsent, htimeout, hselect] at hsound
  rcases hsound (by decide) (by decide) (by decide) with ⟨-, -, hstuck⟩ |
    ⟨reads, stale, status, shifts, answers, spent, -, hstale, -, hshifts, hcalls, hended, -,
      hlanded⟩
  · rw [hstuck] at hok
    cases hok
  · obtain ⟨-, hfilled, -⟩ := hlanded (Bytes.ofList [1, 2, 3, 4]) rfl
    cases spent with
    | true =>
      rw [hended] at hok
      cases hok
    | false =>
      exact ⟨hline, hok, reads, stale, status, shifts, answers, hstale, hshifts, hcalls, hfilled⟩

end NorFlash.Controller
