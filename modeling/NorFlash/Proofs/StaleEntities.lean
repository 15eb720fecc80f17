import NorFlash.Bench.ScriptedFlash
import NorFlash.Proofs.PoolLedger

/-!
Entities whose window has been released. An entity is known by its slot and the key of its device
alone, so that a later window on a device with the same key in the same slot makes it valid again.
-/
namespace NorFlash.Block

variable {δ : Type} [Device δ]

/-- Whatever is asked of an entity is refused, and the pool stays as it was. -/
structure Pool.Rejects (pool : Pool δ) (entity : Entity) : Prop where
  seek (mode : SeekMode) (offset : Int) : Pool.seek entity mode offset pool = .error .notFound pool
  read (length : Nat) : Pool.read entity length pool = .error .notFound pool
  write (bytes : ByteArray) : Pool.write entity bytes pool = .error .notFound pool
  window : Pool.window entity pool = .error .notFound pool
  close : Pool.close entity pool = .error .notFound pool

/-- An entity is refused exactly when it is not open. -/
theorem Pool.rejects_iff {pool : Pool δ} {entity : Entity} :
    pool.Rejects entity ↔ ¬ pool.IsOpen entity := by
  constructor
  · rintro hrejects ⟨device, window, hopen⟩
    cases (window_of_opens hopen).symm.trans hrejects.window
  · intro hclosed
    constructor
    case seek =>
      intro mode offset
      rw [Pool.seek]
      exact onEntity_of_not_isOpen hclosed _
    case read =>
      intro length
      rw [Pool.read]
      exact onEntity_of_not_isOpen hclosed _
    case write => exact fun bytes => onEntity_of_not_isOpen hclosed _
    case window => exact onEntity_of_not_isOpen hclosed _
    case close => exact close_of_not_isOpen hclosed

namespace Ticket

/-- The record of entities grows at its end. An entity in it stays the one that it was, and one
that has been released stays so. -/
def Grows (before after : List Ticket) : Prop :=
  ∀ (place : Nat) (ticket : Ticket), before[place]? = some ticket →
    ∃ kept : Ticket, after[place]? = some kept ∧ kept.entity = ticket.entity ∧
      (kept.isOpen = true → ticket.isOpen = true)

variable {a b c : List Ticket}

theorem Grows.refl (tickets : List Ticket) : Grows tickets tickets :=
  fun _ ticket hticket => ⟨ticket, hticket, rfl, id⟩

theorem Grows.trans (h : Grows a b) (h' : Grows b c) : Grows a c := by
  intro place ticket hticket
  obtain ⟨kept, hkept, hentity, hopen⟩ := h place ticket hticket
  obtain ⟨last, hlast, hentity', hopen'⟩ := h' place kept hkept
  exact ⟨last, hlast, hentity'.trans hentity, hopen ∘ hopen'⟩

theorem grows_issue (tickets : List Ticket) (ticket : Ticket) :
    Grows tickets (tickets ++ [ticket]) := by
  intro place old hold
  have hplace := (List.getElem?_eq_some_iff.mp hold).1
  exact ⟨old, by rw [List.getElem?_append_left hplace, hold], rfl, id⟩

theorem grows_release (entity : Entity) (tickets : List Ticket) :
    Grows tickets (release entity tickets) := by
  intro place ticket hticket
  refine ⟨_, by rw [release, List.getElem?_map, hticket, Option.map_some], ?_⟩
  split
  · exact ⟨rfl, Bool.noConfusion⟩
  · exact ⟨rfl, id⟩

theorem grows_giveUp (place : Nat) (tickets : List Ticket) :
    Grows tickets (giveUp place tickets) := by
  intro other ticket hticket
  refine ⟨_, by rw [giveUp, List.getElem?_modify, hticket]; rfl, ?_⟩
  split <;> exact ⟨rfl, id⟩

end Ticket

namespace Ledger

omit [Device δ] in
theorem grows_onPool {α : Type} {action : EStateM Error (Pool δ) α}
    {record : α → Ledger δ → Ledger δ}
    (hrecord : ∀ value ledger, Ticket.Grows ledger.tickets (record value ledger).tickets)
    (ledger : Ledger δ) : Ticket.Grows ledger.tickets (ledger.onPool action record).2.tickets := by
  rw [onPool]
  cases action ledger.pool with
  | ok value pool => exact hrecord value { ledger with pool }
  | error cause pool => exact .refl _

theorem grows_perform (call : PoolCall δ) (ledger : Ledger δ) :
    Ticket.Grows ledger.tickets (ledger.perform call).2.tickets := by
  cases call with
  | register kind => exact grows_onPool (fun _ _ => .refl _) ledger
  | deviceOpen device =>
    rw [perform]
    cases Pool.deviceOpen device ledger.pool <;> exact .refl _
  | deviceClose place =>
    rw [perform]
    split
    · exact .refl _
    next handle _ =>
      refine grows_onPool (fun _ ledger => ?_)
        { ledger with handles := ledger.handles.set place none }
      exact Ticket.grows_release ⟨handle.index, handle.key⟩ ledger.tickets
  | openWindow place region =>
    rw [perform]
    split
    · exact .refl _
    · exact grows_onPool (fun _ _ => Ticket.grows_issue _ _) ledger
  | check place region =>
    rw [perform]
    split
    · exact .refl _
    · exact grows_onPool (fun _ _ => .refl _) ledger
  | use place call =>
    rw [perform]
    split
    · exact .refl _
    · exact grows_onPool (fun _ _ => .refl _) ledger
  | close place =>
    rw [perform]
    split
    · exact .refl _
    next entity _ =>
      refine (Ticket.grows_giveUp place ledger.tickets).trans ?_
      refine grows_onPool (fun _ ledger => ?_)
        { ledger with tickets := Ticket.giveUp place ledger.tickets }
      exact Ticket.grows_release entity ledger.tickets

/-- By induction on the calls. -/
theorem grows_run (calls : List (PoolCall δ)) (ledger : Ledger δ) :
    Ticket.Grows ledger.tickets (ledger.run calls).tickets := by
  induction calls generalizing ledger with
  | nil => exact .refl _
  | cons call calls ih => exact (grows_perform call ledger).trans (ih _)

theorem run_append (calls later : List (PoolCall δ)) (ledger : Ledger δ) :
    ledger.run (calls ++ later) = (ledger.run calls).run later :=
  List.foldl_append

/-- Once the window of an entity has been released, the entity stays released in every run, and
is refused from then on exactly as long as no entity of the same slot and key is open. -/
theorem released_entity_rejected_iff (slots : Nat) (calls later : List (PoolCall δ)) {place : Nat}
    {ticket : Ticket}
    (hissued : ((start slots : Ledger δ).run calls).tickets[place]? = some ticket)
    (hreleased : ticket.isOpen = false) :
    let ledger := ((start slots : Ledger δ).run calls).run later
    (∃ kept, ledger.tickets[place]? = some kept ∧ kept.entity = ticket.entity ∧
      kept.isOpen = false) ∧
    (ledger.pool.Rejects ticket.entity ↔
      ∀ other ∈ ledger.tickets, other.entity = ticket.entity → other.isOpen = false) := by
  intro ledger
  have hconsistent : Consistent slots ledger := by
    have hrun := consistent_run slots (calls ++ later)
    rwa [run_append] at hrun
  constructor
  · obtain ⟨kept, hkept, hentity, hopen⟩ := grows_run later _ place ticket hissued
    refine ⟨kept, hkept, hentity, Bool.eq_false_iff.mpr fun hagain => ?_⟩
    rw [hopen hagain] at hreleased
    cases hreleased
  · -- Which entities are open can be read off the record, by the invariant of the run.
    rw [Pool.rejects_iff, ← hconsistent.tickets]
    constructor
    · intro hclosed other hother hentity
      exact Bool.eq_false_iff.mpr fun hopen => hclosed ⟨other, hother, hentity, hopen⟩
    · rintro hreleased ⟨other, hother, hentity, hopen⟩
      rw [hreleased other hother hentity] at hopen
      cases hopen

/-- A small device with a key. -/
def smallFlash (key : Nat) : FlashDevice Bench.ScriptedFlash :=
  ⟨key, ⟨⟨0, 2⟩, 1⟩, (2 : Nat), {}⟩

/-- A window of a device with another key leaves the entity refused. -/
theorem released_entity_rejected_otherKey :
    let before := (start 1).run
      [.register .flash, .deviceOpen (smallFlash 7), .openWindow 0 ⟨0, 4⟩, .deviceClose 0]
    let after := before.run [.deviceOpen (smallFlash 8), .openWindow 1 ⟨4, 4⟩]
    before.tickets[0]? = some ⟨⟨0, 7⟩, true, false⟩ ∧ after.pool.IsOpen ⟨0, 8⟩ ∧
      after.pool.Rejects ⟨0, 7⟩ := by
  have hrun := released_entity_rejected_iff 1
    [.register .flash, .deviceOpen (smallFlash 7), .openWindow 0 ⟨0, 4⟩, .deviceClose 0]
    [.deviceOpen (smallFlash 8), .openWindow 1 ⟨4, 4⟩]
    (show _[0]? = some ⟨⟨0, 7⟩, true, false⟩ from rfl) rfl
  exact ⟨rfl, ⟨_, _, rfl⟩, hrun.2.mpr (by decide)⟩

/-- With a window of another device with the same key, an entity that is still held reads, moves
and closes that window, although its own has been released. -/
theorem stale_entity_uses_new_window :
    let before := (start 1).run
      [.register .flash, .deviceOpen (smallFlash 7), .openWindow 0 ⟨0, 4⟩, .deviceClose 0]
    let after := before.run
      [.deviceOpen { smallFlash 7 with raw.short := some 1 }, .openWindow 1 ⟨4, 4⟩]
    before.tickets = [⟨⟨0, 7⟩, true, false⟩] ∧ after.entity? 0 = some ⟨0, 7⟩ ∧
      answerOf (Pool.window ⟨0, 7⟩ after.pool) = .ok ⟨4, 4, 0⟩ ∧
      (answerOf (Pool.read ⟨0, 7⟩ 3 after.pool)).toOption = some (Bench.pattern 4 3) ∧
      answerOf (Pool.seek ⟨0, 7⟩ .set 2 after.pool) = .ok () ∧
      answerOf (Pool.close ⟨0, 7⟩ after.pool) = .ok () :=
  ⟨rfl, rfl, rfl, by decide +kernel, rfl, rfl⟩

end Ledger

end NorFlash.Block
