import NorFlash.Tool.Workspace

/-!
Writing a file: it succeeds where a file is or can be, the file then holds what was written, and
every path that leads elsewhere leads to what it led to before.
-/
namespace NorFlash.Tool

theorem except_bind_ok {ε α β : Type} {x : Except ε α} {f : α → Except ε β} {value : β} :
    (x >>= f) = .ok value ↔ ∃ a, x = .ok a ∧ f a = .ok value := by
  cases x with
  | error cause => simp [bind, Except.bind]
  | ok a => simp [bind, Except.bind]

theorem except_ok_bind {ε α β : Type} (value : α) (f : α → Except ε β) :
    (Except.ok value >>= f) = f value :=
  rfl

@[simp] theorem except_throw_ne_ok {ε α : Type} {cause : ε} {value : α} :
    (throw cause : Except ε α) ≠ .ok value :=
  nofun

@[simp] theorem except_pure_ok {ε α : Type} {found value : α} :
    (pure found : Except ε α) = .ok value ↔ found = value := by
  simp [pure, Except.pure]

namespace Workspace

variable {workspace written : Workspace} {place : Place} {bytes : ByteArray} {text : String}

theorem lookup_put_self (place : Place) (bytes : ByteArray) (files : List (Place × ByteArray)) :
    (put place bytes files).lookup place = some bytes := by
  induction files with
  | nil => simp [put]
  | cons file files ih =>
    obtain ⟨name, old⟩ := file
    by_cases h : name = place
    · simp [put, h]
    · simp [put, h, List.lookup_cons, beq_false_of_ne (Ne.symm h), ih]

theorem lookup_put_of_ne {other : Place} (h : other ≠ place) (bytes : ByteArray)
    (files : List (Place × ByteArray)) :
    (put place bytes files).lookup other = files.lookup other := by
  induction files with
  | nil => simp [put, List.lookup_cons, beq_false_of_ne h]
  | cons file files ih =>
    obtain ⟨name, old⟩ := file
    by_cases hname : name = place
    · subst hname
      simp [put, List.lookup_cons, beq_false_of_ne h]
    · simp [put, hname, List.lookup_cons, ih]

section Walk

theorem requireDirectory_ok :
    workspace.requireDirectory place = .ok () ↔ workspace.node? place = some .directory := by
  unfold requireDirectory
  cases workspace.node? place with
  | none => simp
  | some node => cases node <;> simp

/-- Where a name leads to from a directory. -/
def beyond (place : Place) (name : String) : Except FileError Place :=
  if name = "." then .ok place
  else if name = ".." then .ok place.dropLast
  else if Path.nameLimit < name.utf8ByteSize then .error .nameTooLong
  else .ok (place ++ [name])

theorem enter_ok {name : String} {next : Place} :
    workspace.enter place name = .ok next ↔
      workspace.node? place = some .directory ∧ beyond place name = .ok next := by
  change (workspace.requireDirectory place >>= fun _ => beyond place name) = .ok next ↔ _
  rw [except_bind_ok]
  constructor
  · rintro ⟨_, hdirectory, hnext⟩
    exact ⟨requireDirectory_ok.mp hdirectory, hnext⟩
  · rintro ⟨hdirectory, hnext⟩
    exact ⟨(), requireDirectory_ok.mpr hdirectory, hnext⟩

theorem follow_cons {name : String} {names : List String} {last : Place} :
    workspace.follow (name :: names) place = .ok last ↔
      ∃ next, workspace.enter place name = .ok next ∧ workspace.follow names next = .ok last :=
  except_bind_ok

theorem follow_concat {names : List String} {name : String} {last : Place} :
    workspace.follow (names ++ [name]) place = .ok last ↔
      ∃ next, workspace.follow names place = .ok next ∧ workspace.enter next name = .ok last := by
  unfold follow
  rw [List.foldlM_append, except_bind_ok]
  simp only [List.foldlM_cons, List.foldlM_nil, bind_pure]

theorem locate_ok {node : Node} :
    workspace.locate text = .ok node ↔ ∃ path, Path.parse text = .ok path ∧ ∃ place,
      workspace.follow path.names (path.start workspace.current) = .ok place ∧
      workspace.node? place = some node ∧ (node = .directory ∨ path.endsInSlash = false) := by
  unfold locate
  rw [except_bind_ok]
  refine exists_congr fun path => and_congr_right fun _ => ?_
  rw [except_bind_ok]
  refine exists_congr fun place => and_congr_right fun _ => ?_
  have hflat (found : Node) (hfound : found ≠ .directory) :
      (if path.endsInSlash then throw .notDirectory else return found : Except FileError Node) =
        .ok node ↔ some found = some node ∧ (node = .directory ∨ path.endsInSlash = false) := by
    cases path.endsInSlash with
    | false => simp
    | true =>
      simp only [↓reduceIte, except_throw_ne_ok, Option.some.injEq, Bool.true_eq_false, or_false,
        false_iff, not_and]
      rintro rfl
      exact hfound
  cases workspace.node? place with
  | none => simp
  | some found =>
    cases found with
    | directory =>
      simp only [except_pure_ok, Option.some.injEq, iff_self_and]
      exact fun hnode => .inl hnode.symm
    | file bytes => exact hflat _ nofun
    | sink => exact hflat _ nofun

theorem target_ok :
    workspace.target text = .ok place ↔ ∃ path, Path.parse text = .ok path ∧
      path.namesDirectory = false ∧
      workspace.follow path.names (path.start workspace.current) = .ok place := by
  unfold target
  rw [except_bind_ok]
  refine exists_congr fun path => and_congr_right fun _ => ?_
  cases hdirectory : path.namesDirectory with
  | false => simp
  | true =>
    simp only [↓reduceIte, Bool.true_eq_false, false_and, iff_false]
    intro h
    obtain ⟨above, -, h⟩ := except_bind_ok.mp h
    obtain ⟨-, -, h⟩ := except_bind_ok.mp h
    obtain ⟨-, h, -⟩ := except_bind_ok.mp h
    cases h

end Walk

/-- The workspaces differ in nothing but the file at one place. -/
structure Written (place : Place) (bytes : ByteArray) (workspace written : Workspace) : Prop where
  current : written.current = workspace.current
  before : workspace.node? place ≠ some .directory
  here : written.node? place = some (.file bytes)
  elsewhere : ∀ other, other ≠ place → written.node? other = workspace.node? other

namespace Written

variable (h : Written place bytes workspace written)
include h

theorem directory_iff (other : Place) :
    written.node? other = some .directory ↔ workspace.node? other = some .directory := by
  by_cases hother : other = place
  · subst hother
    simp [h.here, h.before]
  · rw [h.elsewhere other hother]

theorem follow_iff {names : List String} {start last : Place} :
    written.follow names start = .ok last ↔ workspace.follow names start = .ok last := by
  induction names generalizing start with
  | nil => rfl
  | cons name names ih =>
    simp only [follow_cons, enter_ok, h.directory_iff, ih]

/-- A path that does not lead to the place of the file leads where it led before. -/
theorem locate_iff {other : String} (hother : workspace.target other ≠ .ok place) {node : Node} :
    written.locate other = .ok node ↔ workspace.locate other = .ok node := by
  rw [locate_ok, locate_ok]
  refine exists_congr fun path => and_congr_right fun hpath => ?_
  rw [h.current]
  refine exists_congr fun reached => ?_
  rw [h.follow_iff]
  refine and_congr_right fun hreached => ?_
  by_cases hplace : reached = place
  · -- a path to the place that is not its target ends in a slash, and the place is no directory
    subst hplace
    have hslash : path.endsInSlash = true := by
      cases hnames : path.namesDirectory with
      | false => exact absurd (target_ok.mpr ⟨path, hpath, hnames, hreached⟩) hother
      | true => exact ((Bool.and_eq_true _ _).mp hnames).1
    have hbefore := h.before
    rw [h.here, hslash]
    constructor
    · rintro ⟨hnode, rfl | hflat⟩
      · cases hnode
      · cases hflat
    · rintro ⟨hnode, rfl | hflat⟩
      · exact absurd hnode hbefore
      · cases hflat
  · rw [h.elsewhere reached hplace]

end Written

section Flat

/-- All places above this one are directories. -/
def Rooted (workspace : Workspace) (place : Place) : Prop :=
  ∀ above name below, place = above ++ name :: below → workspace.node? above = some .directory

theorem node?_of_prefix {above : Place} (h : above.isPrefixOf workspace.current = true) :
    workspace.node? above = some .directory := by
  rw [node?, h, Bool.true_or, if_pos rfl]

theorem directory_start (path : Path) :
    workspace.node? (path.start workspace.current) = some .directory := by
  apply node?_of_prefix
  unfold Path.start
  split
  · rfl
  · exact List.isPrefixOf_iff_prefix.mpr (List.prefix_refl _)

theorem rooted_start (path : Path) : workspace.Rooted (path.start workspace.current) := by
  unfold Path.start
  split
  · intro above name below h
    cases above <;> cases h
  · intro above name below h
    apply node?_of_prefix
    rw [h]
    exact List.isPrefixOf_iff_prefix.mpr (List.prefix_append ..)

theorem Rooted.dropLast (h : workspace.Rooted place) : workspace.Rooted place.dropLast := by
  intro above name below hplace
  rcases List.eq_nil_or_concat place with rfl | ⟨init, last, rfl⟩
  · cases above <;> cases hplace
  · rw [List.concat_eq_append, List.dropLast_concat] at hplace
    subst hplace
    exact h above name (below ++ [last]) (by simp)

/-- The place above a directory is a directory, the root being above itself. -/
theorem Rooted.directory_dropLast (h : workspace.Rooted place)
    (hplace : workspace.node? place = some .directory) :
    workspace.node? place.dropLast = some .directory := by
  rcases List.eq_nil_or_concat place with rfl | ⟨init, last, rfl⟩
  · exact hplace
  · rw [List.concat_eq_append, List.dropLast_concat]
    exact h init last [] (by simp)

theorem Rooted.enter (h : workspace.Rooted place) {name : String} {next : Place}
    (hnext : workspace.enter place name = .ok next) : workspace.Rooted next := by
  obtain ⟨hdirectory, hbeyond⟩ := enter_ok.mp hnext
  unfold beyond at hbeyond
  split at hbeyond
  · cases hbeyond
    exact h
  split at hbeyond
  · cases hbeyond
    exact h.dropLast
  split at hbeyond
  · cases hbeyond
  · cases hbeyond
    intro above first below hplace
    rcases List.eq_nil_or_concat below with rfl | ⟨init, last, rfl⟩
    · obtain ⟨rfl, -⟩ := List.append_inj' hplace rfl
      exact hdirectory
    · have hsplit : place ++ [name] = (above ++ first :: init) ++ [last] := by
        rw [hplace]
        simp
      obtain ⟨hshort, -⟩ := List.append_inj' hsplit rfl
      exact h above first init hshort

theorem Rooted.follow {names : List String} {last : Place} (h : workspace.Rooted place)
    (hlast : workspace.follow names place = .ok last) : workspace.Rooted last := by
  induction names generalizing place with
  | nil =>
    cases hlast
    exact h
  | cons name names ih =>
    obtain ⟨next, hnext, hrest⟩ := follow_cons.mp hlast
    exact ih (h.enter hnext) hrest

/-- Only a directory is the target of a path that ends in a slash. -/
theorem flat_of_target (htarget : workspace.target text = .ok place)
    (hplace : workspace.node? place ≠ some .directory) {path : Path}
    (hpath : Path.parse text = .ok path) : path.endsInSlash = false := by
  obtain ⟨other, hother, hnames, hfollow⟩ := target_ok.mp htarget
  obtain rfl : path = other := Except.ok.inj (hpath.symm.trans hother)
  rw [← Bool.not_eq_true]
  intro hslash
  rw [Path.namesDirectory, hslash, Bool.true_and] at hnames
  apply hplace
  rcases List.eq_nil_or_concat path.names with hnil | ⟨init, last, hconcat⟩
  · rw [hnil] at hfollow
    cases hfollow
    exact directory_start path
  · rw [hconcat, List.concat_eq_append] at hnames hfollow
    obtain ⟨above, habove, henter⟩ := follow_concat.mp hfollow
    obtain ⟨hdirectory, hbeyond⟩ := enter_ok.mp henter
    rw [List.getLast?_concat] at hnames
    by_cases hdot : last = "."
    · rw [beyond, if_pos hdot] at hbeyond
      cases hbeyond
      exact hdirectory
    · have hdots : last = ".." := by simpa [hdot] using hnames
      rw [beyond, if_neg hdot, if_pos hdots] at hbeyond
      cases hbeyond
      exact ((rooted_start path).follow habove).directory_dropLast hdirectory

end Flat

/-- The path leads to a file, or to where one can be made. -/
def CanHold (text : String) (workspace : Workspace) : Prop :=
  ∃ place, workspace.target text = .ok place ∧
    ∀ node, workspace.node? place = some node → ∃ bytes, node = .file bytes

section Write

variable (hplace : ∀ node, workspace.node? place = some node → ∃ bytes, node = .file bytes)
include hplace

theorem written_put (bytes : ByteArray) :
    Written place bytes workspace { workspace with files := put place bytes workspace.files } where
  current := rfl
  before hdirectory := by
    obtain ⟨bytes, hfile⟩ := hplace _ hdirectory
    cases hfile
  here := by
    unfold node? at hplace ⊢
    split at hplace
    case isTrue =>
      obtain ⟨bytes, hfile⟩ := hplace _ rfl
      cases hfile
    case isFalse hinner =>
      split at hplace
      case isTrue =>
        obtain ⟨bytes, hfile⟩ := hplace _ rfl
        cases hfile
      case isFalse hnull => rw [if_neg hinner, if_neg hnull, lookup_put_self, Option.map_some]
  elsewhere other hother := by
    unfold node?
    rw [lookup_put_of_ne hother]

theorem write_of_target (htarget : workspace.target text = .ok place) (bytes : ByteArray) :
    workspace.write text bytes =
      .ok { workspace with files := put place bytes workspace.files } := by
  rw [write, htarget, except_ok_bind]
  cases hnode : workspace.node? place with
  | none => rfl
  | some node =>
    obtain ⟨old, rfl⟩ := hplace node hnode
    rfl

end Write

/-- What a path with a file, or with room for one, holds once it is written. -/
theorem CanHold.write (h : workspace.CanHold text) (bytes : ByteArray) :
    ∃ written, workspace.write text bytes = .ok written ∧ written.read text = .ok bytes ∧
      ∀ other, workspace.target other ≠ workspace.target text →
        ∀ node, written.locate other = .ok node ↔ workspace.locate other = .ok node := by
  obtain ⟨place, htarget, hplace⟩ := h
  have hwritten := written_put hplace bytes
  refine ⟨_, write_of_target hplace htarget bytes, ?_, ?_⟩
  · obtain ⟨path, hpath, -, hfollow⟩ := target_ok.mp htarget
    have hlocate := locate_ok.mpr ⟨path, hpath, place, hwritten.follow_iff.mpr hfollow,
      hwritten.here, .inr (flat_of_target htarget hwritten.before hpath)⟩
    rw [Workspace.read, hlocate]
    rfl
  · intro other hother node
    rw [htarget] at hother
    exact hwritten.locate_iff hother

/-- The image behind a path: the file, or nothing where there is none. -/
def image (text : String) (workspace : Workspace) : Except FileError ByteArray :=
  if workspace.exists? text then workspace.read text else .ok .empty

end Workspace

end NorFlash.Tool
