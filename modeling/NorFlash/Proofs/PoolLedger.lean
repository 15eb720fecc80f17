import NorFlash.Proofs.PoolSlots

/-!
Runs of a pool, with a ledger of the handles and entities that it has issued. Whatever calls are
made with them, the ledger and the slots of the pool agree: this is shown for each call, and from
there for every run.
-/
namespace NorFlash.Block

variable {δ : Type} [Device δ]

/-- What a device becomes by its own operations. -/
inductive Device.Leads (origin : δ) : δ → Prop where
  | refl : Leads origin origin
  | start {device : δ} (before : Leads origin device) :
    Leads origin (stateAfter (Device.start device))
  | read {device : δ} (length : Nat) (window : Window) (before : Leads origin device) :
    Leads origin (stateAfter (Device.read length (window, device))).2
  | write {device : δ} (bytes : ByteArray) (window : Window) (before : Leads origin device) :
    Leads origin (stateAfter (Device.write bytes (window, device))).2

theorem Device.Leads.trans {a b c : δ} (h : Device.Leads a b) (h' : Device.Leads b c) :
    Device.Leads a c := by
  induction h' with
  | refl => exact h
  | start _ ih => exact .start ih
  | read length window _ ih => exact .read length window ih
  | write bytes window _ ih => exact .write bytes window ih

/-- A call through an open entity. Offsets are signed 64-bit numbers. -/
inductive EntityCall where
  | seek (mode : SeekMode) (offset : Int64)
  | read (length : Nat)
  | write (bytes : ByteArray)

namespace EntityCall

def perform (entity : Entity) : EntityCall → EStateM Error (Pool δ) Unit
  | seek mode offset => Pool.seek entity mode offset.toInt
  | read length => do let _ ← Pool.read entity length
  | write bytes => do let _ ← Pool.write entity bytes

/-- The device itself fails the call. -/
def FailsOn (device : δ) (window : Window) (cause : Error) : EntityCall → Prop
  | seek .. => False
  | read length => ∃ state, Device.read length (window, device) = .error cause state
  | write bytes => ∃ state, Device.write bytes (window, device) = .error cause state

/-- What a call through an entity that is open on a device may come to. -/
inductive Outcome (pool : Pool δ) (entity : Entity) (device : δ) (window : Window)
    (call : EntityCall) : EStateM.Result Error (Pool δ) Unit → Prop where
  | done (device' : δ) (window' : Window) (leads : Device.Leads device device') :
    Outcome pool entity device window call (.ok () (pool.place entity device' window'))
  | refused (cause : Error) : Outcome pool entity device window call (.error cause pool)
  | failed (cause : Error) (device' : δ) (window' : Window) (leads : Device.Leads device device')
    (fails : call.FailsOn device window cause) :
    Outcome pool entity device window call (.error cause (pool.place entity device' window'))

variable {pool : Pool δ} {entity : Entity} {device : δ} {window : Window}

theorem perform_of_not_isOpen (h : ¬ pool.IsOpen entity) (call : EntityCall) :
    call.perform entity pool = .error .notFound pool := by
  cases call with
  | seek mode offset =>
    rw [perform, Pool.seek]
    exact Pool.onEntity_of_not_isOpen h _
  | read length =>
    refine bind_of_error ?_ _
    rw [Pool.read]
    exact Pool.onEntity_of_not_isOpen h _
  | write bytes => exact bind_of_error (Pool.onEntity_of_not_isOpen h _) _

theorem outcome_seek (h : pool.Opens entity device window) (mode : SeekMode) (offset : Int64) :
    Outcome pool entity device window (.seek mode offset)
      ((EntityCall.seek mode offset).perform entity pool) := by
  rw [perform]
  rcases Pool.seek_cases h mode offset.toInt_lt with ⟨target, -, -, hseek⟩ | hseek
  · rw [hseek]
    exact .done device _ .refl
  · rw [hseek]
    exact .refused _

theorem outcome_read (h : pool.Opens entity device window) (length : Nat) :
    Outcome pool entity device window (.read length)
      ((EntityCall.read length).perform entity pool) := by
  have hread := Pool.read_of_opens h length
  by_cases hlength : length = 0 ∨ window.size < length
  · rw [if_pos hlength] at hread
    rw [perform, bind_of_error hread]
    exact .refused _
  · rw [if_neg hlength] at hread
    have hleads := Device.Leads.read length window (.refl : Device.Leads device device)
    cases hdevice : Device.read length (window, device) with
    | ok bytes state =>
      obtain ⟨window', device'⟩ := state
      rw [hdevice] at hread hleads
      rw [perform, bind_of_ok hread]
      exact .done device' window' hleads
    | error cause state =>
      obtain ⟨window', device'⟩ := state
      rw [hdevice] at hread hleads
      rw [perform, bind_of_error hread]
      exact .failed cause device' window' hleads ⟨_, hdevice⟩

theorem outcome_write (h : pool.Opens entity device window) (bytes : ByteArray) :
    Outcome pool entity device window (.write bytes)
      ((EntityCall.write bytes).perform entity pool) := by
  have hwrite := Pool.write_of_opens h bytes
  have hleads := Device.Leads.write bytes window (.refl : Device.Leads device device)
  cases hdevice : Device.write bytes (window, device) with
  | ok count state =>
    obtain ⟨window', device'⟩ := state
    rw [hdevice] at hwrite hleads
    rw [perform, bind_of_ok hwrite]
    exact .done device' window' hleads
  | error cause state =>
    obtain ⟨window', device'⟩ := state
    rw [hdevice] at hwrite hleads
    rw [perform, bind_of_error hwrite]
    exact .failed cause device' window' hleads ⟨_, hdevice⟩

/-- A call through an open entity touches no slot but that of the entity, whose device stays the
same one, and a call that is refused before it comes to the device touches none. -/
theorem outcome_perform (h : pool.Opens entity device window) (call : EntityCall) :
    Outcome pool entity device window call (call.perform entity pool) := by
  cases call with
  | seek mode offset => exact outcome_seek h mode offset
  | read length => exact outcome_read h length
  | write bytes => exact outcome_write h bytes

end EntityCall

/-- An entity as it was issued. -/
structure Ticket where
  entity : Entity
  /-- It has not been given up. -/
  held : Bool
  /-- The window that it was issued for has not been released. -/
  isOpen : Bool

namespace Ticket

/-- A window that an entity names is open. -/
def Live (tickets : List Ticket) (entity : Entity) : Prop :=
  ∃ ticket ∈ tickets, ticket.entity = entity ∧ ticket.isOpen = true

/-- Gives up one of the entities. -/
def giveUp (place : Nat) (tickets : List Ticket) : List Ticket :=
  tickets.modify place fun ticket => { ticket with held := false }

/-- The window that an entity names is released. -/
def release (entity : Entity) (tickets : List Ticket) : List Ticket :=
  tickets.map fun ticket =>
    if ticket.entity = entity then { ticket with isOpen := false } else ticket

variable {tickets : List Ticket} {entity other : Entity}

theorem live_issue {held : Bool} :
    Live (tickets ++ [⟨entity, held, true⟩]) other ↔ other = entity ∨ Live tickets other := by
  constructor
  · rintro ⟨ticket, hmem, hentity, hopen⟩
    rcases List.mem_append.mp hmem with hold | hnew
    · exact .inr ⟨ticket, hold, hentity, hopen⟩
    · obtain rfl := List.mem_singleton.mp hnew
      exact .inl hentity.symm
  · rintro (rfl | ⟨ticket, hmem, hrest⟩)
    · exact ⟨_, List.mem_append_right _ List.mem_cons_self, rfl, rfl⟩
    · exact ⟨ticket, List.mem_append_left _ hmem, hrest⟩

theorem live_release : Live (release entity tickets) other ↔
    other ≠ entity ∧ Live tickets other := by
  constructor
  · rintro ⟨ticket, hmem, rfl, hopen⟩
    obtain ⟨before, hbefore, rfl⟩ := List.mem_map.mp hmem
    by_cases hsame : before.entity = entity
    · rw [if_pos hsame] at hopen
      cases hopen
    · rw [if_neg hsame] at hopen ⊢
      exact ⟨hsame, before, hbefore, rfl, hopen⟩
  · rintro ⟨hne, ticket, hmem, rfl, hopen⟩
    exact ⟨ticket, List.mem_map.mpr ⟨ticket, hmem, if_neg hne⟩, rfl, hopen⟩

theorem live_giveUp {place : Nat} : Live (giveUp place tickets) other ↔ Live tickets other := by
  have hget (i : Nat) : (giveUp place tickets)[i]? =
      tickets[i]?.map fun ticket => if place = i then { ticket with held := false } else ticket :=
    List.getElem?_modify ..
  constructor
  · rintro ⟨ticket, hmem, rfl, hopen⟩
    obtain ⟨i, hticket⟩ := List.mem_iff_getElem?.mp hmem
    rw [hget] at hticket
    obtain ⟨before, hbefore, rfl⟩ := Option.map_eq_some_iff.mp hticket
    refine ⟨before, List.mem_of_getElem? hbefore, ?_⟩
    by_cases hplace : place = i
    · rw [if_pos hplace] at hopen ⊢
      exact ⟨rfl, hopen⟩
    · rw [if_neg hplace] at hopen ⊢
      exact ⟨rfl, hopen⟩
  · rintro ⟨ticket, hmem, rfl, hopen⟩
    obtain ⟨i, hticket⟩ := List.mem_iff_getElem?.mp hmem
    have hafter := hget i
    rw [hticket, Option.map_some] at hafter
    refine ⟨_, List.mem_of_getElem? hafter, ?_⟩
    split <;> exact ⟨rfl, hopen⟩

end Ticket

/-- A call on a pool. Handles and entities are named by the order in which they were issued. -/
inductive PoolCall (δ : Type) where
  | register (kind : DeviceKind)
  | deviceOpen (device : δ)
  | deviceClose (handle : Nat)
  | openWindow (handle : Nat) (region : Region)
  | check (handle : Nat) (region : Region)
  | use (entity : Nat) (call : EntityCall)
  | close (entity : Nat)

/-- A pool and what it has issued. -/
structure Ledger (δ : Type) where
  pool : Pool δ
  /-- The handles, each with the device that it was issued for, until they are given up. -/
  handles : List (Option (Handle × δ))
  tickets : List Ticket

namespace Ledger

/-- A fresh pool. -/
def start (slots : Nat) : Ledger δ :=
  ⟨Pool.empty slots, [], []⟩

/-- A handle that has been issued and not given up. -/
def handle? (ledger : Ledger δ) (place : Nat) : Option Handle :=
  ledger.handles[place]?.join.map (·.1)

/-- An entity that has been issued and not given up. -/
def entity? (ledger : Ledger δ) (place : Nat) : Option Entity :=
  (ledger.tickets[place]?.filter (·.held)).map (·.entity)

/-- Runs an operation on the pool, and records what a success has brought. -/
def onPool {α : Type} (action : EStateM Error (Pool δ) α) (record : α → Ledger δ → Ledger δ)
    (ledger : Ledger δ) : Except Error Unit × Ledger δ :=
  match action ledger.pool with
  | .ok value pool => (.ok (), record value { ledger with pool })
  | .error cause pool => (.error cause, { ledger with pool })

omit [Device δ] in
theorem handle?_eq_some_iff {ledger : Ledger δ} {place : Nat} {handle : Handle} :
    ledger.handle? place = some handle ↔
      ∃ device, ledger.handles[place]? = some (some (handle, device)) := by
  rw [handle?, Option.map_eq_some_iff]
  constructor
  · rintro ⟨⟨issued, device⟩, hissued, rfl⟩
    exact ⟨device, Option.join_eq_some_iff.mp hissued⟩
  · rintro ⟨device, hissued⟩
    exact ⟨_, Option.join_eq_some_iff.mpr hissued, rfl⟩

section OnPool

variable {α : Type} {action : EStateM Error (Pool δ) α} {before after : Pool δ}
  {handles : List (Option (Handle × δ))} {tickets : List Ticket} {record : α → Ledger δ → Ledger δ}

omit [Device δ] in
theorem onPool_of_ok {value : α} (h : action before = .ok value after) :
    onPool action record ⟨before, handles, tickets⟩ =
      (.ok (), record value ⟨after, handles, tickets⟩) := by
  rw [onPool, h]

omit [Device δ] in
theorem onPool_of_error {cause : Error} (h : action before = .error cause after) :
    onPool action record ⟨before, handles, tickets⟩ =
      (.error cause, ⟨after, handles, tickets⟩) := by
  rw [onPool, h]

end OnPool

/-- Makes a call and keeps the ledger. A call that names nothing that is held is not made. -/
def perform : PoolCall δ → Ledger δ → Except Error Unit × Ledger δ
  | .register kind, ledger => ledger.onPool (Pool.register kind) fun _ ledger => ledger
  | .deviceOpen device, ledger =>
    match Pool.deviceOpen device ledger.pool with
    | .ok handle pool =>
      (.ok (), { ledger with pool, handles := ledger.handles ++ [some (handle, device)] })
    | .error rejected pool => (.error rejected.cause, { ledger with pool })
  | .deviceClose place, ledger =>
    match ledger.handle? place with
    | none => (.ok (), ledger)
    | some handle =>
      { ledger with handles := ledger.handles.set place none }.onPool (Pool.deviceClose handle)
        fun _ ledger => { ledger with
          tickets := Ticket.release ⟨handle.index, handle.key⟩ ledger.tickets }
  | .openWindow place region, ledger =>
    match ledger.handle? place with
    | none => (.ok (), ledger)
    | some handle =>
      ledger.onPool (Pool.openWindow handle region) fun entity ledger =>
        { ledger with tickets := ledger.tickets ++ [⟨entity, true, true⟩] }
  | .check place region, ledger =>
    match ledger.handle? place with
    | none => (.ok (), ledger)
    | some handle => ledger.onPool (Pool.check handle region) fun _ ledger => ledger
  | .use place call, ledger =>
    match ledger.entity? place with
    | none => (.ok (), ledger)
    | some entity => ledger.onPool (call.perform entity) fun _ ledger => ledger
  | .close place, ledger =>
    match ledger.entity? place with
    | none => (.ok (), ledger)
    | some entity =>
      { ledger with tickets := Ticket.giveUp place ledger.tickets }.onPool (Pool.close entity)
        fun _ ledger => { ledger with tickets := Ticket.release entity ledger.tickets }

/-- Makes calls one after the other, whatever they return. -/
def run (calls : List (PoolCall δ)) (ledger : Ledger δ) : Ledger δ :=
  calls.foldl (fun ledger call => (ledger.perform call).2) ledger

/-- The ledger and the slots of the pool agree. -/
structure Consistent (slots : Nat) (ledger : Ledger δ) : Prop where
  length : ledger.pool.slots.length = slots
  size : ledger.pool.size = ledger.pool.slots.countP (·.isSome)
  distinct {i j : Nat} {a b : Slot δ} : ledger.pool.Binds i a → ledger.pool.Binds j b →
    a.key = b.key → i = j
  handles {place : Nat} {handle : Handle} {device : δ} :
    ledger.handles[place]? = some (some (handle, device)) →
    ∃ slot, ledger.pool.Binds handle.index slot ∧ slot.key = handle.key ∧
      Device.Leads device slot.device
  separate {i j : Nat} {a b : Handle × δ} : ledger.handles[i]? = some (some a) →
    ledger.handles[j]? = some (some b) → a.1.index = b.1.index → i = j
  tickets (entity : Entity) : Ticket.Live ledger.tickets entity ↔ ledger.pool.IsOpen entity

namespace Consistent

variable {slots : Nat} {ledger : Ledger δ}

theorem start (slots : Nat) : Consistent slots (Ledger.start slots : Ledger δ) where
  length := List.length_replicate
  size := by simp [Ledger.start, Pool.empty, List.countP_replicate]
  distinct := by
    intro i j a b ha
    simp [Ledger.start, Pool.empty, Pool.Binds, List.getElem?_replicate] at ha
  handles := by simp [Ledger.start]
  separate := by simp [Ledger.start]
  tickets entity := by
    simp [Ledger.start, Pool.empty, Ticket.Live, Pool.IsOpen, Pool.Opens, Pool.Binds,
      List.getElem?_replicate]

/-- A slot keeps its key and its device while something else in it changes, and the record of open
windows follows. -/
theorem update (h : Consistent slots ledger) {index : Nat} {slot : Slot δ}
    (hbinds : ledger.pool.Binds index slot) (slot' : Slot δ) (hkey : slot'.key = slot.key)
    (hleads : Device.Leads slot.device slot'.device) {tickets : List Ticket}
    (htickets : ∀ entity, Ticket.Live tickets entity ↔
      (ledger.pool.put index (some slot')).IsOpen entity) :
    Consistent slots ⟨ledger.pool.put index (some slot'), ledger.handles, tickets⟩ := by
  have hindex := hbinds.lt_length
  have hback {i : Nat} {a : Slot δ} (ha : (ledger.pool.put index (some slot')).Binds i a) :
      ∃ b, ledger.pool.Binds i b ∧ a.key = b.key := by
    by_cases hi : i = index
    · subst hi
      obtain rfl := Option.some.inj ((Pool.binds_put_self hindex).mp ha)
      exact ⟨slot, hbinds, hkey⟩
    · exact ⟨a, (Pool.binds_put_of_ne hi).mp ha, rfl⟩
  constructor
  case length => rw [Pool.length_put, h.length]
  case size => rw [Pool.size_put, h.size, hbinds.countP_put]
  case distinct =>
    intro i j a b ha hb hsame
    obtain ⟨a', ha', hakey⟩ := hback ha
    obtain ⟨b', hb', hbkey⟩ := hback hb
    exact h.distinct ha' hb' (by rw [← hakey, ← hbkey, hsame])
  case handles =>
    intro place handle device hhandle
    obtain ⟨other, hother, hname, hdevice⟩ := h.handles hhandle
    by_cases hi : handle.index = index
    · rw [hi] at hother ⊢
      obtain rfl := hbinds.eq hother
      exact ⟨slot', (Pool.binds_put_self hindex).mpr rfl, by rw [hkey, hname],
        hdevice.trans hleads⟩
    · exact ⟨other, (Pool.binds_put_of_ne hi).mpr hother, hname, hdevice⟩
  case separate => exact h.separate
  case tickets => exact htickets

/-- The pool may take devices of more kinds. -/
theorem registered (h : Consistent slots ledger) (kinds : List DeviceKind) :
    Consistent slots { ledger with pool := { ledger.pool with registered := kinds } } :=
  ⟨h.length, h.size, h.distinct, h.handles, h.separate, h.tickets⟩

theorem register (h : Consistent slots ledger) (kind : DeviceKind) :
    Consistent slots (ledger.perform (.register kind)).2 := by
  rw [perform]
  rcases Pool.register_cases kind ledger.pool with hregister | hregister | hregister
  · rw [onPool_of_ok hregister]
    exact h
  · rw [onPool_of_ok hregister]
    exact h.registered _
  · rw [onPool_of_error hregister]
    exact h

/-- A device that is bound to a free slot gets a handle of its own. -/
theorem take (h : Consistent slots ledger) {device started : δ} {index : Nat}
    (haccepts : ledger.pool.Accepts device started index) :
    Consistent slots ⟨ledger.pool.take index started,
      ledger.handles ++ [some (⟨index, Device.key started⟩, device)], ledger.tickets⟩ := by
  obtain ⟨hindex, -⟩ := List.getElem?_eq_some_iff.mp haccepts.lowest.1
  have hself : (ledger.pool.take index started).Binds index
      ⟨Device.key started, started, none⟩ :=
    (Pool.binds_put_self hindex).mpr rfl
  have hother {i : Nat} {slot : Slot δ} (hi : i ≠ index) :
      (ledger.pool.take index started).Binds i slot ↔ ledger.pool.Binds i slot :=
    Pool.binds_put_of_ne hi
  have hfree {i : Nat} {slot : Slot δ} (hslot : ledger.pool.Binds i slot) : i ≠ index := by
    rintro rfl
    cases hslot.symm.trans haccepts.lowest.1
  -- A handle is either the new one, in the last place, or one from before.
  have hissued {place : Nat} {a : Handle × δ}
      (ha : (ledger.handles ++ [some (⟨index, Device.key started⟩, device)])[place]? =
        some (some a)) :
      ledger.handles[place]? = some (some a) ∨
        place = ledger.handles.length ∧ a = (⟨index, Device.key started⟩, device) := by
    rw [List.getElem?_append] at ha
    split at ha
    · exact .inl ha
    · obtain ⟨hlast, ha⟩ := List.getElem?_eq_some_iff.mp ha
      rw [List.length_singleton] at hlast
      rw [List.getElem_singleton] at ha
      exact .inr ⟨by omega, (Option.some.inj ha).symm⟩
  constructor
  case length => exact Pool.length_put.trans h.length
  case size =>
    change ledger.pool.size + 1 = _
    rw [h.size]
    exact haccepts.lowest.1.countP_put.symm
  case distinct =>
    intro i j a b ha hb hsame
    by_cases hi : i = index <;> by_cases hj : j = index
    · rw [hi, hj]
    · rw [hi] at ha
      obtain rfl := hself.eq ha
      exact absurd ⟨j, b, (hother hj).mp hb, hsame.symm⟩ haccepts.fresh
    · rw [hj] at hb
      obtain rfl := hself.eq hb
      exact absurd ⟨i, a, (hother hi).mp ha, hsame⟩ haccepts.fresh
    · exact h.distinct ((hother hi).mp ha) ((hother hj).mp hb) hsame
  case handles =>
    intro place handle offered hhandle
    rcases hissued hhandle with hold | ⟨-, hnew⟩
    · obtain ⟨slot, hslot, hrest⟩ := h.handles hold
      exact ⟨slot, (hother (hfree hslot)).mpr hslot, hrest⟩
    · cases hnew
      have hleads := Device.Leads.start (.refl : Device.Leads device device)
      rw [haccepts.start] at hleads
      exact ⟨_, hself, rfl, hleads⟩
  case separate =>
    intro i j a b ha hb hsame
    rcases hissued ha with hold | ⟨hi, rfl⟩ <;> rcases hissued hb with hold' | ⟨hj, rfl⟩
    · exact h.separate hold hold' hsame
    · obtain ⟨slot, hslot, -⟩ := h.handles hold
      exact absurd hsame (hfree hslot)
    · obtain ⟨slot, hslot, -⟩ := h.handles hold'
      exact absurd hsame.symm (hfree hslot)
    · rw [hi, hj]
  case tickets =>
    intro entity
    rw [h.tickets]
    by_cases hentity : entity.index = index
    · subst hentity
      constructor
      · rintro ⟨_, _, hopen⟩
        exact absurd rfl (hfree hopen)
      · intro hopen
        refine absurd hopen (Pool.not_isOpen_put ?_)
        rintro slot hslot
        cases hslot
        rfl
    · exact (Pool.isOpen_put_of_ne hentity).symm

theorem deviceOpen (h : Consistent slots ledger) (device : δ) :
    Consistent slots (ledger.perform (.deviceOpen device)).2 := by
  rw [perform]
  rcases Pool.accepts_or_refuses ledger.pool device with ⟨started, index, haccepts⟩ |
    ⟨rejected, hrefuses⟩
  · rw [Pool.deviceOpen_of_accepts haccepts]
    exact h.take haccepts
  · rw [Pool.deviceOpen_of_refuses hrefuses]
    exact h

/-- A handle that is held names the slot of the device that it was issued for. -/
theorem binds_handle (h : Consistent slots ledger) {place : Nat} {handle : Handle}
    (hheld : ledger.handle? place = some handle) :
    ∃ slot, ledger.pool.Binds handle.index slot ∧ slot.key = handle.key := by
  obtain ⟨device, hissued⟩ := handle?_eq_some_iff.mp hheld
  obtain ⟨slot, hslot, hkey, -⟩ := h.handles hissued
  exact ⟨slot, hslot, hkey⟩

/-- When a handle is given up, its slot is free again and the entity of the slot is closed. -/
theorem clear (h : Consistent slots ledger) {place : Nat} {handle : Handle}
    (hheld : ledger.handle? place = some handle) :
    Consistent slots ⟨{ ledger.pool.put handle.index none with size := ledger.pool.size - 1 },
      ledger.handles.set place none,
      Ticket.release ⟨handle.index, handle.key⟩ ledger.tickets⟩ := by
  obtain ⟨device, hissued⟩ := handle?_eq_some_iff.mp hheld
  obtain ⟨slot, hslot, hkey⟩ := h.binds_handle hheld
  have hindex := hslot.lt_length
  have hback {i : Nat} {a : Slot δ} (ha : (ledger.pool.put handle.index none).Binds i a) :
      i ≠ handle.index ∧ ledger.pool.Binds i a := by
    by_cases hi : i = handle.index
    · rw [hi] at ha
      cases (Pool.binds_put_self hindex).mp ha
    · exact ⟨hi, (Pool.binds_put_of_ne hi).mp ha⟩
  have hkept {i : Nat} {a : Handle × δ}
      (ha : (ledger.handles.set place none)[i]? = some (some a)) :
      i ≠ place ∧ ledger.handles[i]? = some (some a) := by
    by_cases hi : place = i
    · rw [List.getElem?_set, if_pos hi] at ha
      split at ha <;> cases ha
    · rw [List.getElem?_set_ne hi] at ha
      exact ⟨Ne.symm hi, ha⟩
  constructor
  case length => exact Pool.length_put.trans h.length
  case size =>
    change ledger.pool.size - 1 = _
    rw [h.size]
    exact hslot.countP_clear.symm
  case distinct =>
    intro i j a b ha hb
    exact h.distinct (hback ha).2 (hback hb).2
  case handles =>
    intro i other offered hother
    obtain ⟨hi, hold⟩ := hkept hother
    obtain ⟨slot', hslot', hrest⟩ := h.handles hold
    refine ⟨slot', (Pool.binds_put_of_ne fun hsame => ?_).mpr hslot', hrest⟩
    exact hi (h.separate hold hissued hsame)
  case separate =>
    intro i j a b ha hb
    exact h.separate (hkept ha).2 (hkept hb).2
  case tickets =>
    intro entity
    rw [Ticket.live_release, h.tickets]
    exact (@Pool.isOpen_clear _ ledger.pool ⟨handle.index, handle.key⟩ entity ⟨slot, hslot, hkey⟩
      none (by simp)).symm

theorem deviceClose (h : Consistent slots ledger) (place : Nat) :
    Consistent slots (ledger.perform (.deviceClose place)).2 := by
  rw [perform]
  cases hheld : ledger.handle? place with
  | none => exact h
  | some handle =>
    obtain ⟨slot, hslot, hkey⟩ := h.binds_handle hheld
    dsimp only
    rw [onPool_of_ok (Pool.deviceClose_of_binds hslot hkey)]
    exact h.clear hheld

theorem openWindow (h : Consistent slots ledger) (place : Nat) (region : Region) :
    Consistent slots (ledger.perform (.openWindow place region)).2 := by
  rw [perform]
  cases ledger.handle? place with
  | none => exact h
  | some handle =>
    dsimp only
    rcases Pool.openWindow_cases handle region ledger.pool with ⟨cause, hopen⟩ |
      ⟨device, hslot, -, hopen⟩
    · rw [onPool_of_error hopen]
      exact h
    · rw [onPool_of_ok hopen]
      refine h.update hslot ⟨handle.key, device, some (.ofRegion region)⟩ rfl .refl fun entity => ?_
      rw [Ticket.live_issue, h.tickets]
      exact (Pool.isOpen_place ⟨_, hslot, rfl⟩).symm

theorem check (h : Consistent slots ledger) (place : Nat) (region : Region) :
    Consistent slots (ledger.perform (.check place region)).2 := by
  rw [perform]
  cases ledger.handle? place with
  | none => exact h
  | some handle =>
    have hcheck := Pool.check_eq handle region ledger.pool
    dsimp only
    cases hopen : Pool.openWindow handle region ledger.pool with
    | ok entity pool =>
      rw [hopen] at hcheck
      rw [onPool_of_ok hcheck]
      exact h
    | error cause pool =>
      rw [hopen] at hcheck
      rw [onPool_of_error hcheck]
      exact h

/-- A call through an entity that is open leaves it open, and its device in its slot. -/
theorem place (h : Consistent slots ledger) {entity : Entity} {device device' : δ}
    {window window' : Window} (hopen : ledger.pool.Opens entity device window)
    (hleads : Device.Leads device device') :
    Consistent slots { ledger with pool := ledger.pool.place entity device' window' } := by
  refine h.update hopen ⟨entity.key, device', some window'⟩ rfl hleads fun other => ?_
  rw [h.tickets]
  refine ((Pool.isOpen_place hopen.isOpen.names).trans ⟨?_, .inr⟩).symm
  rintro (rfl | hother)
  · exact hopen.isOpen
  · exact hother

theorem use (h : Consistent slots ledger) (place : Nat) (call : EntityCall) :
    Consistent slots (ledger.perform (.use place call)).2 := by
  rw [perform]
  cases ledger.entity? place with
  | none => exact h
  | some entity =>
    dsimp only
    by_cases hopen : ledger.pool.IsOpen entity
    · obtain ⟨device, window, hopen⟩ := hopen
      have houtcome := EntityCall.outcome_perform hopen call
      rw [onPool]
      generalize call.perform entity ledger.pool = result at houtcome
      cases houtcome with
      | done device' window' leads => exact h.place hopen leads
      | refused cause => exact h
      | failed cause device' window' leads => exact h.place hopen leads
    · rw [onPool_of_error (EntityCall.perform_of_not_isOpen hopen call)]
      exact h

theorem giveUp (h : Consistent slots ledger) (place : Nat) :
    Consistent slots { ledger with tickets := Ticket.giveUp place ledger.tickets } :=
  ⟨h.length, h.size, h.distinct, h.handles, h.separate,
    fun entity => Ticket.live_giveUp.trans (h.tickets entity)⟩

theorem close (h : Consistent slots ledger) (place : Nat) :
    Consistent slots (ledger.perform (.close place)).2 := by
  rw [perform]
  cases ledger.entity? place with
  | none => exact h
  | some entity =>
    have hgiven := h.giveUp place
    dsimp only
    by_cases hopen : ledger.pool.IsOpen entity
    · obtain ⟨device, window, hopen⟩ := hopen
      rw [onPool_of_ok (Pool.close_of_opens hopen)]
      refine hgiven.update hopen ⟨entity.key, device, none⟩ rfl .refl fun other => ?_
      rw [Ticket.live_release, hgiven.tickets]
      exact (Pool.isOpen_clear hopen.isOpen.names (by simp)).symm
    · rw [onPool_of_error (Pool.close_of_not_isOpen hopen)]
      exact hgiven

theorem perform (h : Consistent slots ledger) (call : PoolCall δ) :
    Consistent slots (ledger.perform call).2 := by
  cases call with
  | register kind => exact h.register kind
  | deviceOpen device => exact h.deviceOpen device
  | deviceClose place => exact h.deviceClose place
  | openWindow place region => exact h.openWindow place region
  | check place region => exact h.check place region
  | use place call => exact h.use place call
  | close place => exact h.close place

end Consistent

/-- After any calls on a fresh pool the ledger and the slots agree, by induction on the calls. -/
theorem consistent_run (slots : Nat) (calls : List (PoolCall δ)) :
    Consistent slots ((start slots : Ledger δ).run calls) := by
  have hrun (ledger : Ledger δ) (h : Consistent slots ledger) :
      Consistent slots (ledger.run calls) := by
    induction calls generalizing ledger with
    | nil => exact h
    | cons call calls ih => exact ih _ (h.perform call)
  exact hrun _ (.start slots)

end Ledger

end NorFlash.Block
