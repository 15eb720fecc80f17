import NorFlash.Part.Table

/-!
The order of the table. The first entry that answers is the one with the most ID bytes, unless an
entry that its own ID bytes do not find answers as well. The table has three of these: each stands
behind an entry that is found by a part of its ID bytes.
-/
namespace NorFlash.Part

/-- An entry answers for a response that begins with its ID bytes, if it has any. -/
def Answers (part : Part) (response : List UInt8) : Prop :=
  part.idLength ≠ 0 ∧ part.id <+: response

/-- An entry of the table answers, and none ahead of it does. -/
def AnswersFirst (part : Part) (response : List UInt8) : Prop :=
  part.Answers response ∧ ∃ ahead behind, table = ahead ++ part :: behind ∧
    ∀ other ∈ ahead, ¬ other.Answers response

theorem isIdentifiedBy_iff {part : Part} {response : List UInt8} :
    part.isIdentifiedBy response = true ↔ part.Answers response := by
  simp [isIdentifiedBy, Answers]

section FirstMatch

variable {parts : List Part} {response : List UInt8} {part : Part}

theorem identified_of_first (h : parts.find? (·.isIdentifiedBy response) = some part) :
    part ∈ parts ∧ part.idLength ≠ 0 ∧ part.id <+: response :=
  ⟨List.mem_of_find?_eq_some h, isIdentifiedBy_iff.mp (by simpa using List.find?_some h)⟩

/-- What is left of a response still finds the entry as long as it has the ID bytes of the
entry: no entry ahead of it answers to less. -/
theorem first_of_prefix (h : parts.find? (·.isIdentifiedBy response) = some part)
    {shorter : List UInt8} (hshorter : shorter <+: response) (hid : part.id <+: shorter) :
    parts.find? (·.isIdentifiedBy shorter) = some part := by
  obtain ⟨hanswers, ahead, behind, rfl, hahead⟩ := List.find?_eq_some_iff_append.mp h
  have hlength := (isIdentifiedBy_iff.mp hanswers).1
  apply List.find?_eq_some_iff_append.mpr
  refine ⟨isIdentifiedBy_iff.mpr ⟨hlength, hid⟩, ahead, behind, rfl, ?_⟩
  intro other hother
  have hsilent := hahead other hother
  simp only [Bool.not_eq_true', Bool.eq_false_iff, ne_eq, isIdentifiedBy_iff] at hsilent ⊢
  intro hless
  exact hsilent ⟨hless.1, hless.2.trans hshorter⟩

variable (hlengths : ∀ entry ∈ parts, entry.id.length = entry.idLength)
include hlengths

/-- Among the entries that their own ID bytes find, none that answers has more of them. -/
theorem idLength_le_first (h : parts.find? (·.isIdentifiedBy response) = some part)
    {other : Part} (hother : other ∈ parts) (hanswers : other.id <+: response)
    (hown : parts.find? (·.isIdentifiedBy other.id) = some other) :
    other.idLength ≤ part.idLength := by
  obtain ⟨hpart, -, hid⟩ := identified_of_first h
  apply Nat.le_of_not_lt
  intro hlonger
  have hprefix : part.id <+: other.id := by
    apply List.prefix_of_prefix_length_le hid hanswers
    rw [hlengths part hpart, hlengths other hother]
    omega
  have hfirst := first_of_prefix h hanswers hprefix
  rw [hown] at hfirst
  cases hfirst
  exact Nat.lt_irrefl _ hlonger

end FirstMatch

/-- The ID bytes of `s25fl032p`, `s25fl064p` and `s25fs256s_64k`, which the table has behind
`s25fl032a`, `s25fl064a` and `s25fl256s_64k`. -/
def hiddenIds : List (List UInt8) := [
  [0x01, 0x02, 0x15, 0x4d, 0x00],
  [0x01, 0x02, 0x16, 0x4d, 0x00],
  [0x01, 0x02, 0x19, 0x4d, 0x01, 0x81]]

theorem table_id_length : ∀ part ∈ table, part.id.length = part.idLength := by
  decide +kernel

theorem table_idLength_ne_zero : ∀ part ∈ table, part.idLength ≠ 0 := by
  decide +kernel

theorem findById?_id_iff : ∀ part ∈ table, findById? part.id = some part ↔ part.id ∉ hiddenIds := by
  decide +kernel

theorem hiddenIds_subset : ∀ id ∈ hiddenIds, ∃ part ∈ table, part.id = id := by
  decide +kernel

theorem id_eq_of_hiddenIds_prefix :
    ∀ id ∈ hiddenIds, ∀ part ∈ table, id <+: part.id → part.id = id := by
  decide +kernel

theorem findById?_eq_none_iff {response : List UInt8} :
    findById? response = none ↔ ∀ part ∈ table, part.idLength ≠ 0 → ¬ part.id <+: response := by
  simp only [findById?, List.find?_eq_none, isIdentifiedBy_iff, Answers, not_and]

theorem findById?_eq_some_iff {response : List UInt8} {part : Part} :
    findById? response = some part ↔ part.AnswersFirst response := by
  simp only [findById?, List.find?_eq_some_iff_append, Bool.not_eq_true', Bool.eq_false_iff, ne_eq,
    isIdentifiedBy_iff, AnswersFirst]

/-- The entry found has the most ID bytes exactly when no hidden entry answers as well. -/
theorem longest_iff_no_hidden {response : List UInt8} {part : Part}
    (h : findById? response = some part) :
    (∀ other ∈ table, other.idLength ≠ 0 → other.id <+: response →
        other.idLength ≤ part.idLength) ↔
      ∀ id ∈ hiddenIds, ¬ id <+: response := by
  obtain ⟨hpart, -, hid⟩ := identified_of_first h
  constructor
  · intro hlongest id hhidden hanswers
    obtain ⟨other, hother, rfl⟩ := hiddenIds_subset id hhidden
    have hle := hlongest other hother (table_idLength_ne_zero other hother) hanswers
    have hprefix : other.id <+: part.id := by
      apply List.prefix_of_prefix_length_le hanswers hid
      rw [table_id_length part hpart, table_id_length other hother]
      exact hle
    -- the hidden entry could only be outdone by an entry with the same ID bytes
    have hsame := id_eq_of_hiddenIds_prefix other.id hhidden part hpart hprefix
    have hown : findById? part.id = some part := first_of_prefix h hid (List.prefix_refl _)
    apply (findById?_id_iff part hpart).mp hown
    rw [hsame]
    exact hhidden
  · intro hnone other hother _ hanswers
    have hfound := (findById?_id_iff other hother).mpr fun hhidden => hnone _ hhidden hanswers
    exact idLength_le_first table_id_length h hother hanswers hfound

/-- What a read-ID response finds: nothing exactly when no entry answers; else an entry that
answers, which has the most ID bytes of all that do unless one of the three hidden entries does.
Every other entry is found by its own ID bytes. -/
theorem findById?_longest_iff (response : List UInt8) :
    (findById? response = none ↔
        ∀ part ∈ table, part.idLength ≠ 0 → ¬ part.id <+: response) ∧
      (∀ part, findById? response = some part →
        part ∈ table ∧ part.idLength ≠ 0 ∧ part.id <+: response ∧
          ((∀ other ∈ table, other.idLength ≠ 0 → other.id <+: response →
              other.idLength ≤ part.idLength) ↔
            ∀ id ∈ hiddenIds, ¬ id <+: response)) ∧
      ∀ part ∈ table, findById? part.id = some part ↔ part.id ∉ hiddenIds := by
  refine ⟨findById?_eq_none_iff, ?_, findById?_id_iff⟩
  intro part h
  obtain ⟨hpart, hlength, hid⟩ := identified_of_first h
  exact ⟨hpart, hlength, hid, longest_iff_no_hidden h⟩

/-- The ID bytes of `s25fl032p` find `s25fl032a`, which has two fewer. -/
theorem s25fl032p_hidden :
    ∃ part ∈ table, ∃ found ∈ table,
      part.name = "s25fl032p" ∧ part.id = [0x01, 0x02, 0x15, 0x4d, 0x00] ∧
      findById? part.id = some found ∧ found.name = "s25fl032a" ∧
      part.idLength = 5 ∧ found.idLength = 3 := by
  decide +kernel

end NorFlash.Part
