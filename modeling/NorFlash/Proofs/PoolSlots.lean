import NorFlash.Block.Pool
import NorFlash.Proofs.WriteCycle

/-!
The slots of a pool, and what each operation does to the slot that its handle or entity names.
Nothing else in the pool matters to an operation, and nothing else is changed by it.
-/
namespace NorFlash.Block

/-- The position in the window that a seek aims at, in signed 64-bit numbers. -/
def SeekMode.target (window : Window) (offset : Int) : SeekMode → Option Int
  | set => some offset
  | current => some (Pool.signed window.cursor + offset)
  | fromEnd => none

/-- The target of a seek lies inside the window and is a signed 64-bit number. -/
def Window.Admits (window : Window) (target : Int) : Prop :=
  0 ≤ target ∧ target < window.size ∧ target < 0x8000000000000000

namespace Pool

variable {δ : Type}

/-- The slot with this index is bound. -/
def Binds (pool : Pool δ) (index : Nat) (slot : Slot δ) : Prop :=
  pool.slots[index]? = some (some slot)

def Free (pool : Pool δ) (index : Nat) : Prop :=
  pool.slots[index]? = some none

/-- A slot is bound to a device with this key. -/
def HoldsKey (pool : Pool δ) (key : Nat) : Prop :=
  ∃ index slot, pool.Binds index slot ∧ slot.key = key

/-- The slot that a handle or an entity names is bound to a device with its key. -/
def Names (pool : Pool δ) (index key : Nat) : Prop :=
  ∃ slot, pool.Binds index slot ∧ slot.key = key

/-- An entity is open on a device through a window. -/
def Opens (pool : Pool δ) (entity : Entity) (device : δ) (window : Window) : Prop :=
  pool.Binds entity.index ⟨entity.key, device, some window⟩

def IsOpen (pool : Pool δ) (entity : Entity) : Prop :=
  ∃ device window, pool.Opens entity device window

/-- The pool with something else in one of its slots. -/
def put (pool : Pool δ) (index : Nat) (slot : Option (Slot δ)) : Pool δ :=
  { pool with slots := pool.slots.set index slot }

/-- The pool with this device and window in the slot of an entity. -/
def place (pool : Pool δ) (entity : Entity) (device : δ) (window : Window) : Pool δ :=
  pool.put entity.index (some ⟨entity.key, device, some window⟩)

section Slots

variable {pool : Pool δ} {index other : Nat} {slot slot' : Slot δ}
  {content content' : Option (Slot δ)}

theorem Binds.lt_length (h : pool.Binds index slot) : index < pool.slots.length :=
  (List.getElem?_eq_some_iff.mp h).1

theorem Binds.eq (h : pool.Binds index slot) (h' : pool.Binds index slot') : slot = slot' :=
  Option.some.inj (Option.some.inj (h.symm.trans h'))

/-- A slot that is put back as it was leaves the pool as it was. -/
theorem Binds.put_self (h : pool.Binds index slot) : pool.put index (some slot) = pool := by
  obtain ⟨hindex, hslot⟩ := List.getElem?_eq_some_iff.mp h
  rw [put, ← hslot, List.set_getElem_self hindex]

theorem binds_put_self (hindex : index < pool.slots.length) :
    (pool.put index content).Binds index slot ↔ content = some slot := by
  simp only [Binds, put, List.getElem?_set_self hindex, Option.some.injEq]

theorem binds_put_of_ne (hne : other ≠ index) :
    (pool.put index content).Binds other slot ↔ pool.Binds other slot := by
  simp only [Binds, put, List.getElem?_set_ne (Ne.symm hne)]

theorem put_put : (pool.put index content).put index content' = pool.put index content' := by
  simp only [put, List.set_set]

@[simp] theorem size_put : (pool.put index content).size = pool.size :=
  rfl

@[simp] theorem length_put : (pool.put index content).slots.length = pool.slots.length :=
  List.length_set

end Slots

section Counts

variable {pool : Pool δ} {index : Nat} {slot slot' : Slot δ}

/-- As many slots are bound when one of them is bound to something else. -/
theorem Binds.countP_put (h : pool.Binds index slot) :
    (pool.put index (some slot')).slots.countP (·.isSome) = pool.slots.countP (·.isSome) := by
  obtain ⟨hindex, hslot⟩ := List.getElem?_eq_some_iff.mp h
  have hpos : 0 < pool.slots.countP (·.isSome) :=
    List.countP_pos_iff.mpr ⟨_, List.mem_of_getElem? h, rfl⟩
  simp only [put, List.countP_set hindex, hslot, Option.isSome_some, ↓reduceIte]
  omega

/-- One slot fewer is bound when one of them is released. -/
theorem Binds.countP_clear (h : pool.Binds index slot) :
    (pool.put index none).slots.countP (·.isSome) = pool.slots.countP (·.isSome) - 1 := by
  obtain ⟨hindex, hslot⟩ := List.getElem?_eq_some_iff.mp h
  simp [put, List.countP_set hindex, hslot]

/-- One more slot is bound when a free one is. -/
theorem Free.countP_put (h : pool.Free index) :
    (pool.put index (some slot)).slots.countP (·.isSome) = pool.slots.countP (·.isSome) + 1 := by
  obtain ⟨hindex, hslot⟩ := List.getElem?_eq_some_iff.mp h
  simp [put, List.countP_set hindex, hslot]

end Counts

section OnSlot

variable {α : Type} {pool : Pool δ} {index key : Nat} {slot : Slot δ}

theorem onSlot_of_binds (h : pool.Binds index slot) (action : EStateM Error (Slot δ) α) :
    onSlot index slot.key action pool =
      match action slot with
      | .ok value slot => .ok value (pool.put index (some slot))
      | .error cause slot => .error cause (pool.put index (some slot)) := by
  unfold Binds at h
  cases hresult : action slot <;> simp only [onSlot, h, ↓reduceIte, List.set_set, put, hresult]

theorem onSlot_of_not_names (h : ¬ pool.Names index key) (action : EStateM Error (Slot δ) α) :
    onSlot index key action pool = .error .notFound pool := by
  rw [onSlot]
  split
  next slot hslot => exact if_neg fun hkey => h ⟨slot, hslot, hkey⟩
  next => rfl

/-- What is done to one slot leaves the number of bound slots alone. -/
theorem size_of_onSlot {action : EStateM Error (Slot δ) α} {value : α} {after : Pool δ}
    (h : onSlot index key action pool = .ok value after) : after.size = pool.size := by
  by_cases hnames : pool.Names index key
  · obtain ⟨slot, hslot, rfl⟩ := hnames
    rw [onSlot_of_binds hslot] at h
    cases haction : action slot with
    | ok result changed =>
      rw [haction] at h
      cases h
      rfl
    | error cause changed =>
      rw [haction] at h
      cases h
  · rw [onSlot_of_not_names hnames] at h
    cases h

end OnSlot

section OnEntity

variable {α : Type} {pool : Pool δ} {entity : Entity} {device : δ} {window : Window}

theorem Opens.isOpen (h : pool.Opens entity device window) : pool.IsOpen entity :=
  ⟨device, window, h⟩

theorem onEntity_of_opens (h : pool.Opens entity device window)
    (action : EStateM Error (Window × δ) α) :
    onEntity entity action pool =
      match action (window, device) with
      | .ok value (window, device) => .ok value (pool.place entity device window)
      | .error cause (window, device) => .error cause (pool.place entity device window) := by
  rw [onEntity]
  refine (onSlot_of_binds h _).trans ?_
  dsimp only
  cases action (window, device) <;> rfl

theorem Opens.place_self (h : pool.Opens entity device window) :
    pool.place entity device window = pool :=
  Binds.put_self h

theorem opens_place (hindex : entity.index < pool.slots.length) :
    (pool.place entity device window).Opens entity device window :=
  (binds_put_self hindex).mpr rfl

theorem place_place {device' : δ} {window' : Window} :
    (pool.place entity device window).place entity device' window' =
      pool.place entity device' window' :=
  put_put

/-- An operation on an open entity changes its slot and no other. -/
theorem onEntity_place {action : EStateM Error (Window × δ) α} {value : α}
    (hindex : entity.index < pool.slots.length) {window' : Window} {device' : δ}
    (h : action (window, device) = .ok value (window', device')) :
    onEntity entity action (pool.place entity device window) =
      .ok value (pool.place entity device' window') := by
  rw [onEntity_of_opens (opens_place hindex), h]
  exact congrArg _ place_place

/-- What wants a window is refused where there is none, or none of the entity. -/
theorem onSlot_of_not_isOpen (h : ¬ pool.IsOpen entity) {action : EStateM Error (Slot δ) α}
    (hclosed : ∀ key device, action ⟨key, device, none⟩ = .error .notFound ⟨key, device, none⟩) :
    onSlot entity.index entity.key action pool = .error .notFound pool := by
  by_cases hnames : pool.Names entity.index entity.key
  · obtain ⟨⟨key, device, window⟩, hslot, hkey⟩ := hnames
    dsimp only at hkey
    subst hkey
    cases window with
    | none =>
      refine (onSlot_of_binds hslot _).trans ?_
      rw [hclosed]
      exact congrArg _ hslot.put_self
    | some window => exact absurd ⟨device, window, hslot⟩ h
  · exact onSlot_of_not_names hnames _

/-- An entity that is not open is refused, whatever is asked of it. -/
theorem onEntity_of_not_isOpen (h : ¬ pool.IsOpen entity)
    (action : EStateM Error (Window × δ) α) :
    onEntity entity action pool = .error .notFound pool := by
  rw [onEntity]
  exact onSlot_of_not_isOpen h fun _ _ => rfl

end OnEntity

section Windows

variable {pool : Pool δ} {entity other : Entity}

theorem isOpen_put_of_ne {index : Nat} {content : Option (Slot δ)} (hne : other.index ≠ index) :
    (pool.put index content).IsOpen other ↔ pool.IsOpen other := by
  simp only [IsOpen, Opens, binds_put_of_ne hne]

/-- Where a slot is put that has no window, no entity is open. -/
theorem not_isOpen_put {content : Option (Slot δ)}
    (hclosed : ∀ slot, content = some slot → slot.window = none) :
    ¬ (pool.put other.index content).IsOpen other := by
  rintro ⟨device, window, hopen⟩
  have hindex : other.index < pool.slots.length := by
    have hlt := Binds.lt_length hopen
    rwa [length_put] at hlt
  have hwindow := hclosed _ ((binds_put_self hindex).mp hopen)
  cases hwindow

theorem IsOpen.names (h : pool.IsOpen entity) : pool.Names entity.index entity.key := by
  obtain ⟨device, window, hopen⟩ := h
  exact ⟨_, hopen, rfl⟩

/-- Entities of one slot that its key admits are the same. -/
theorem Names.eq (h : pool.Names entity.index entity.key) (h' : pool.Names other.index other.key)
    (hindex : other.index = entity.index) : other = entity := by
  obtain ⟨slot, hslot, hkey⟩ := h
  obtain ⟨slot', hslot', hkey'⟩ := h'
  rw [hindex] at hslot'
  obtain rfl := hslot.eq hslot'
  obtain ⟨index, key⟩ := entity
  obtain ⟨index', key'⟩ := other
  dsimp only at hindex hkey hkey'
  rw [hindex, ← hkey, ← hkey']

/-- Where a window is placed, its entity is open beside those that were open before. -/
theorem isOpen_place (hnames : pool.Names entity.index entity.key) {device : δ}
    {window : Window} :
    (pool.place entity device window).IsOpen other ↔ other = entity ∨ pool.IsOpen other := by
  have ⟨slot, hslot, _⟩ := hnames
  by_cases hindex : other.index = entity.index
  · constructor
    · rintro ⟨device', window', hopen⟩
      rw [Opens, hindex] at hopen
      have hslot' := Option.some.inj ((binds_put_self hslot.lt_length).mp hopen)
      obtain ⟨index, key⟩ := entity
      obtain ⟨index', key'⟩ := other
      obtain rfl := hindex
      cases hslot'
      exact .inl rfl
    · rintro (rfl | hopen)
      · exact (opens_place hslot.lt_length).isOpen
      · obtain rfl : other = entity := Names.eq hnames hopen.names hindex
        exact (opens_place hslot.lt_length).isOpen
  · rw [place, isOpen_put_of_ne hindex]
    refine ⟨.inr, fun hopen => hopen.resolve_left ?_⟩
    rintro rfl
    exact hindex rfl

/-- Where a slot is left without a window, the entity of its key is open no more. -/
theorem isOpen_clear (hnames : pool.Names entity.index entity.key) {content : Option (Slot δ)}
    (hclosed : ∀ slot, content = some slot → slot.window = none) :
    (pool.put entity.index content).IsOpen other ↔ other ≠ entity ∧ pool.IsOpen other := by
  by_cases hindex : other.index = entity.index
  · rw [← hindex]
    refine ⟨fun hopen => absurd hopen (not_isOpen_put hclosed), ?_⟩
    rintro ⟨hne, hopen⟩
    exact absurd (Names.eq hnames hopen.names hindex) hne
  · rw [isOpen_put_of_ne hindex]
    refine ⟨fun hopen => ⟨?_, hopen⟩, And.right⟩
    rintro rfl
    exact hindex rfl

end Windows

section Entities

variable {pool : Pool δ} {entity : Entity} {device : δ} {window : Window}

theorem window_of_opens (h : pool.Opens entity device window) :
    Pool.window entity pool = .ok window pool := by
  rw [Pool.window]
  exact (onEntity_of_opens h _).trans (congrArg _ h.place_self)

theorem checkedAdd_eq (a b : Int) :
    checkedAdd a b =
      if -0x8000000000000000 ≤ a + b ∧ a + b < 0x8000000000000000 then .ok (a + b)
      else .error .invalidArgument :=
  rfl

/-- A seek to a position inside the window moves the cursor there, and changes nothing else. -/
theorem seek_of_admits (h : pool.Opens entity device window) {mode : SeekMode} {offset target : Int}
    (htarget : mode.target window offset = some target) (hinside : window.Admits target) :
    seek entity mode offset pool =
      .ok () (pool.place entity device { window with cursor := target.toNat }) := by
  obtain ⟨hlow, hhigh, hsigned⟩ := hinside
  rw [seek]
  refine (onEntity_of_opens h _).trans ?_
  cases mode with
  | set =>
    obtain rfl : offset = target := Option.some.inj htarget
    dsimp only
    rw [if_neg (by omega)]
  | current =>
    obtain rfl : signed window.cursor + offset = target := Option.some.inj htarget
    dsimp only
    rw [checkedAdd_eq, if_pos (by omega)]
    dsimp only
    rw [if_neg (by omega)]
  | fromEnd => cases htarget

/-- Any other seek by a signed 64-bit offset is refused and changes nothing. -/
theorem seek_of_not_admits (h : pool.Opens entity device window) {mode : SeekMode} {offset : Int}
    (hsigned : offset < 0x8000000000000000)
    (houtside : ∀ target, mode.target window offset = some target → ¬ window.Admits target) :
    seek entity mode offset pool = .error .invalidArgument pool := by
  have hsame := h.place_self
  rw [seek]
  refine (onEntity_of_opens h _).trans ?_
  cases mode with
  | set =>
    have hrefused := houtside offset rfl
    unfold Window.Admits at hrefused
    dsimp only
    rw [if_pos (by omega)]
    exact congrArg _ hsame
  | current =>
    have hrefused := houtside _ rfl
    unfold Window.Admits at hrefused
    dsimp only
    rw [checkedAdd_eq]
    by_cases hfits : -0x8000000000000000 ≤ signed window.cursor + offset ∧
        signed window.cursor + offset < 0x8000000000000000
    · rw [if_pos hfits]
      dsimp only
      rw [if_pos (by omega)]
      exact congrArg _ hsame
    · rw [if_neg hfits]
      exact congrArg _ hsame
  | fromEnd => exact congrArg _ hsame

theorem seek_cases (h : pool.Opens entity device window) (mode : SeekMode) {offset : Int}
    (hsigned : offset < 0x8000000000000000) :
    (∃ target, mode.target window offset = some target ∧ window.Admits target ∧
      seek entity mode offset pool =
        .ok () (pool.place entity device { window with cursor := target.toNat })) ∨
    seek entity mode offset pool = .error .invalidArgument pool := by
  by_cases hadmitted : ∃ target, mode.target window offset = some target ∧ window.Admits target
  · obtain ⟨target, htarget, hinside⟩ := hadmitted
    exact .inl ⟨target, htarget, hinside, seek_of_admits h htarget hinside⟩
  · exact .inr (seek_of_not_admits h hsigned fun target htarget hinside =>
      hadmitted ⟨target, htarget, hinside⟩)

theorem seek_ok_iff (h : pool.Opens entity device window) {mode : SeekMode} {offset : Int}
    (hsigned : offset < 0x8000000000000000) {after : Pool δ} :
    seek entity mode offset pool = .ok () after ↔
      ∃ target, mode.target window offset = some target ∧ window.Admits target ∧
        after = pool.place entity device { window with cursor := target.toNat } := by
  constructor
  · intro hok
    rcases seek_cases h mode hsigned with ⟨target, htarget, hinside, hseek⟩ | hseek
    · cases hseek.symm.trans hok
      exact ⟨target, htarget, hinside, rfl⟩
    · cases hseek.symm.trans hok
  · rintro ⟨target, htarget, hinside, rfl⟩
    exact seek_of_admits h htarget hinside

/-- A read of no more bytes than the window has goes to the device. -/
theorem read_of_opens [Device δ] (h : pool.Opens entity device window) (length : Nat) :
    read entity length pool =
      if length = 0 ∨ window.size < length then .error .invalidArgument pool
      else match Device.read length (window, device) with
        | .ok bytes (window, device) => .ok bytes (pool.place entity device window)
        | .error cause (window, device) => .error cause (pool.place entity device window) := by
  rw [read]
  refine (onEntity_of_opens h _).trans ?_
  dsimp only
  by_cases hlength : length = 0 ∨ window.size < length
  · rw [if_pos hlength, if_pos hlength]
    exact congrArg _ h.place_self
  · rw [if_neg hlength, if_neg hlength]
    cases Device.read length (window, device) <;> rfl

theorem write_of_opens [Device δ] (h : pool.Opens entity device window) (bytes : ByteArray) :
    write entity bytes pool =
      match Device.write bytes (window, device) with
      | .ok count (window, device) => .ok count (pool.place entity device window)
      | .error cause (window, device) => .error cause (pool.place entity device window) := by
  rw [write]
  refine (onEntity_of_opens h _).trans ?_
  cases Device.write bytes (window, device) <;> rfl

theorem close_of_opens (h : pool.Opens entity device window) :
    close entity pool = .ok () (pool.put entity.index (some ⟨entity.key, device, none⟩)) := by
  rw [close]
  exact onSlot_of_binds h _

theorem close_of_not_isOpen (h : ¬ pool.IsOpen entity) :
    close entity pool = .error .notFound pool := by
  rw [close]
  exact onSlot_of_not_isOpen h fun _ _ => rfl

end Entities

section Devices

variable {pool : Pool δ} {handle : Handle} {slot : Slot δ}

theorem register_cases (kind : DeviceKind) (pool : Pool δ) :
    register kind pool = .ok () pool ∨
      register kind pool = .ok () { pool with registered := kind :: pool.registered } ∨
      register kind pool = .error .noSpace pool := by
  rw [register]
  split
  · exact .inl rfl
  · split
    · exact .inr (.inl rfl)
    · exact .inr (.inr rfl)

theorem find?_isSome_iff (key : Nat) : (pool.find? key).isSome = true ↔ pool.HoldsKey key := by
  rw [find?, List.findIdx?_isSome, List.any_eq_true]
  constructor
  · rintro ⟨slot?, hmem, hkey⟩
    obtain ⟨index, hslot⟩ := List.mem_iff_getElem?.mp hmem
    obtain ⟨slot, rfl, hslot_key⟩ := (Option.any_eq_true _ _).mp hkey
    exact ⟨index, slot, hslot, of_decide_eq_true hslot_key⟩
  · rintro ⟨index, slot, hslot, hkey⟩
    exact ⟨some slot, List.mem_of_getElem? hslot, decide_eq_true hkey⟩

/-- The lowest of the free slots. -/
def Lowest (pool : Pool δ) (index : Nat) : Prop :=
  pool.Free index ∧ ∀ other, other < index → ¬ pool.Free other

theorem free?_eq_some_iff {index : Nat} : pool.free? = some index ↔ pool.Lowest index := by
  rw [free?, List.findIdx?_eq_some_iff_getElem]
  constructor
  · rintro ⟨hindex, hfree, hbefore⟩
    refine ⟨?_, fun other hother hnone => ?_⟩
    · rw [Free, List.getElem?_eq_getElem hindex, Option.isNone_iff_eq_none.mp hfree]
    · obtain ⟨hlt, hslot⟩ := List.getElem?_eq_some_iff.mp hnone
      exact hbefore other hother (by rw [hslot]; rfl)
  · rintro ⟨hfree, hbefore⟩
    obtain ⟨hindex, hslot⟩ := List.getElem?_eq_some_iff.mp hfree
    refine ⟨hindex, by rw [hslot]; rfl, fun other hother hnone => ?_⟩
    refine hbefore other hother ?_
    rw [Free, List.getElem?_eq_getElem (Nat.lt_trans hother hindex),
      Option.isNone_iff_eq_none.mp hnone]

theorem free?_eq_none_iff : pool.free? = none ↔ ∀ index, ¬ pool.Free index := by
  rw [free?, List.findIdx?_eq_none_iff]
  constructor
  · intro hfull index hfree
    have hbound := hfull none (List.mem_of_getElem? hfree)
    cases hbound
  · intro hfull slot? hmem
    obtain ⟨index, hslot⟩ := List.mem_iff_getElem?.mp hmem
    cases slot? with
    | none => exact absurd hslot (hfull index)
    | some slot => rfl

variable [Device δ]

/-- The pool with a device bound to one of its free slots. -/
def take (pool : Pool δ) (index : Nat) (device : δ) : Pool δ :=
  { pool.put index (some ⟨Device.key device, device, none⟩) with size := pool.size + 1 }

/-- A device can be bound to a slot, once it has passed its own check. -/
structure Accepts (pool : Pool δ) (device started : δ) (index : Nat) : Prop where
  registered : Device.kind device ∈ pool.registered
  start : Device.start device = .ok () started
  fresh : ¬ pool.HoldsKey (Device.key started)
  lowest : pool.Lowest index

/-- A device is handed back for a reason, after its own check if it came to that. The reasons
stand in the order in which they are looked for. -/
inductive Refuses (pool : Pool δ) (device : δ) : Rejected δ → Prop where
  | notRegistered (kind : Device.kind device ∉ pool.registered) :
    Refuses pool device ⟨.notRegistered, device⟩
  | unfit {started : δ} {cause : Error} (registered : Device.kind device ∈ pool.registered)
    (start : Device.start device = .error cause started) :
    Refuses pool device ⟨.invalidArgument, started⟩
  | busy {started : δ} (registered : Device.kind device ∈ pool.registered)
    (start : Device.start device = .ok () started)
    (held : pool.HoldsKey (Device.key started)) : Refuses pool device ⟨.busy, started⟩
  | full {started : δ} (registered : Device.kind device ∈ pool.registered)
    (start : Device.start device = .ok () started)
    (fresh : ¬ pool.HoldsKey (Device.key started)) (full : ∀ index, ¬ pool.Free index) :
    Refuses pool device ⟨.noSpace, started⟩

theorem deviceOpen_of_accepts {device started : δ} {index : Nat}
    (h : pool.Accepts device started index) :
    deviceOpen device pool = .ok ⟨index, Device.key started⟩ (pool.take index started) := by
  have hkind : pool.isRegistered (Device.kind device) = true := List.elem_iff.mpr h.registered
  have hkey : (pool.find? (Device.key started)).isSome = false :=
    Bool.eq_false_iff.mpr (mt (find?_isSome_iff _).mp h.fresh)
  rw [deviceOpen, hkind, h.start]
  dsimp only
  rw [hkey, free?_eq_some_iff.mpr h.lowest]
  rfl

theorem deviceOpen_of_refuses {device : δ} {rejected : Rejected δ}
    (h : pool.Refuses device rejected) : deviceOpen device pool = .error rejected pool := by
  rw [deviceOpen]
  cases h with
  | notRegistered kind =>
    have hkind : pool.isRegistered (Device.kind device) = false :=
      Bool.eq_false_iff.mpr (mt List.elem_iff.mp kind)
    rw [hkind]
    rfl
  | unfit registered start =>
    have hkind : pool.isRegistered (Device.kind device) = true := List.elem_iff.mpr registered
    rw [hkind, start]
    rfl
  | busy registered start held =>
    have hkind : pool.isRegistered (Device.kind device) = true := List.elem_iff.mpr registered
    rw [hkind, start]
    dsimp only
    rw [(find?_isSome_iff _).mpr held]
    rfl
  | full registered start fresh full =>
    have hkind : pool.isRegistered (Device.kind device) = true := List.elem_iff.mpr registered
    rw [hkind, start]
    dsimp only
    rw [Bool.eq_false_iff.mpr (mt (find?_isSome_iff _).mp fresh), free?_eq_none_iff.mpr full]
    rfl

/-- Every device is either bound or handed back. -/
theorem accepts_or_refuses (pool : Pool δ) (device : δ) :
    (∃ started index, pool.Accepts device started index) ∨
      ∃ rejected, pool.Refuses device rejected := by
  by_cases hkind : Device.kind device ∈ pool.registered
  · cases hstart : Device.start device with
    | error cause started => exact .inr ⟨_, .unfit hkind hstart⟩
    | ok value started =>
      by_cases hkey : pool.HoldsKey (Device.key started)
      · exact .inr ⟨_, .busy hkind hstart hkey⟩
      · cases hfree : pool.free? with
        | some index =>
          exact .inl ⟨started, index, hkind, hstart, hkey, free?_eq_some_iff.mp hfree⟩
        | none => exact .inr ⟨_, .full hkind hstart hkey (free?_eq_none_iff.mp hfree)⟩
  · exact .inr ⟨_, .notRegistered hkind⟩

theorem deviceOpen_ok_iff {device : δ} {handle : Handle} {after : Pool δ} :
    deviceOpen device pool = .ok handle after ↔
      ∃ started, pool.Accepts device started handle.index ∧ handle.key = Device.key started ∧
        after = pool.take handle.index started := by
  constructor
  · intro hopen
    rcases accepts_or_refuses pool device with ⟨started, index, h⟩ | ⟨rejected, h⟩
    · rw [deviceOpen_of_accepts h] at hopen
      cases hopen
      exact ⟨started, h, rfl, rfl⟩
    · rw [deviceOpen_of_refuses h] at hopen
      cases hopen
  · rintro ⟨started, h, hkey, rfl⟩
    rw [deviceOpen_of_accepts h, ← hkey]

theorem deviceOpen_error_iff {device : δ} {rejected : Rejected δ} {after : Pool δ} :
    deviceOpen device pool = .error rejected after ↔
      pool.Refuses device rejected ∧ after = pool := by
  constructor
  · intro hopen
    rcases accepts_or_refuses pool device with ⟨started, index, h⟩ | ⟨other, h⟩
    · rw [deviceOpen_of_accepts h] at hopen
      cases hopen
    · rw [deviceOpen_of_refuses h] at hopen
      cases hopen
      exact ⟨h, rfl⟩
  · rintro ⟨h, rfl⟩
    exact deviceOpen_of_refuses h

theorem openWindow_of_binds (h : pool.Binds handle.index slot) (hkey : slot.key = handle.key)
    (region : Region) :
    openWindow handle region pool =
      if region.isAligned (Device.pageSize slot.device) = false then .error .invalidArgument pool
      else if slot.window.isSome = true then .error .busy pool
      else .ok ⟨handle.index, handle.key⟩
        (pool.place ⟨handle.index, handle.key⟩ slot.device (.ofRegion region)) := by
  obtain ⟨index, key⟩ := handle
  obtain ⟨slotKey, device, window⟩ := slot
  dsimp only at h hkey
  subst hkey
  rw [openWindow]
  refine (onSlot_of_binds h _).trans ?_
  dsimp only
  cases region.isAligned (Device.pageSize device) with
  | false => exact congrArg _ h.put_self
  | true =>
    cases window with
    | none => rfl
    | some window => exact congrArg _ h.put_self

theorem openWindow_of_not_names (h : ¬ pool.Names handle.index handle.key) (region : Region) :
    openWindow handle region pool = .error .notFound pool :=
  onSlot_of_not_names h _

theorem deviceClose_of_binds (h : pool.Binds handle.index slot) (hkey : slot.key = handle.key) :
    deviceClose handle pool =
      .ok (Device.stop slot.device)
        { pool.put handle.index none with size := pool.size - 1 } := by
  unfold Binds at h
  simp only [deviceClose, h, hkey, ↓reduceIte, put]

theorem deviceClose_of_not_names (h : ¬ pool.Names handle.index handle.key) :
    deviceClose handle pool = .error .notFound pool := by
  rw [deviceClose]
  split
  next slot hslot => exact if_neg fun hkey => h ⟨slot, hslot, hkey⟩
  next => rfl

/-- Opening a window fails and changes nothing, or it puts the window in an empty place. -/
theorem openWindow_cases (handle : Handle) (region : Region) (pool : Pool δ) :
    (∃ cause, openWindow handle region pool = .error cause pool) ∨
    ∃ device, pool.Binds handle.index ⟨handle.key, device, none⟩ ∧
      region.isAligned (Device.pageSize device) = true ∧
      openWindow handle region pool = .ok ⟨handle.index, handle.key⟩
        (pool.place ⟨handle.index, handle.key⟩ device (.ofRegion region)) := by
  by_cases hnames : pool.Names handle.index handle.key
  · obtain ⟨⟨key, device, window⟩, hslot, hkey⟩ := hnames
    dsimp only at hkey
    subst hkey
    have hopen := openWindow_of_binds hslot rfl region
    dsimp only at hopen
    cases haligned : region.isAligned (Device.pageSize device) with
    | false => exact .inl ⟨_, hopen.trans (if_pos haligned)⟩
    | true =>
      rw [haligned, if_neg (by decide)] at hopen
      cases window with
      | some window => exact .inl ⟨_, hopen⟩
      | none => exact .inr ⟨device, hslot, haligned, hopen⟩
  · exact .inl ⟨_, openWindow_of_not_names hnames region⟩

/-- A check succeeds exactly when the window can be opened, and leaves the pool as it was. -/
theorem check_eq (handle : Handle) (region : Region) (pool : Pool δ) :
    check handle region pool =
      match openWindow handle region pool with
      | .ok _ _ => .ok () pool
      | .error cause _ => .error cause pool := by
  rw [check]
  rcases openWindow_cases handle region pool with ⟨cause, hopen⟩ | ⟨device, hslot, -, hopen⟩
  · rw [bind_of_error hopen, hopen]
  · have hopened : (pool.place ⟨handle.index, handle.key⟩ device (.ofRegion region)).Opens
        ⟨handle.index, handle.key⟩ device (.ofRegion region) :=
      (binds_put_self hslot.lt_length).mpr rfl
    rw [bind_of_ok hopen, hopen, close_of_opens hopened]
    simp only [place, put_put]
    rw [hslot.put_self]

end Devices

end Pool

end NorFlash.Block
