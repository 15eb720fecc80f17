import NorFlash.Package
import NorFlash.Proofs.EntityStream

/-!
The table of contents of a package, over any source of bytes and then over an open entity. Reading
it stops at the first record that is cut off, ends the list, lies outside the package or is one too
many, and this record alone decides what is answered. A table that was written down is read back.
-/
namespace NorFlash.Package

open NorFlash.Block

/-- Record `j` of a table of contents. -/
def entryAt (content : ByteArray) (j : Nat) : Entry :=
  .ofBytes (Bytes.toList (Bytes.slice content (headerSize + j * entrySize) entrySize))

/-- The content ends before record `j` does. -/
def CutOff (content : ByteArray) (j : Nat) : Prop :=
  content.size < headerSize + j * entrySize + entrySize

/-- The image of the entry does not end within a package of `length` bytes. -/
def Entry.Outside (length : Nat) (entry : Entry) : Prop :=
  length < entry.offset + entry.size

/-- Reading goes no further than record `j`. -/
def Stops (content : ByteArray) (length j : Nat) : Prop :=
  CutOff content j ∨ (entryAt content j).isLast = true ∨ (entryAt content j).Outside length ∨
    j = maxEntries

instance (content : ByteArray) (j : Nat) : Decidable (CutOff content j) :=
  inferInstanceAs (Decidable (_ < _))

instance (length : Nat) (entry : Entry) : Decidable (entry.Outside length) :=
  inferInstanceAs (Decidable (_ < _))

/-- What is answered when reading stops at record `k`. -/
def verdict (content : ByteArray) (length k : Nat) : Except Error (List Entry) :=
  if CutOff content k then .error .invalidImage
  else if (entryAt content k).isLast then .ok ((List.range k).map (entryAt content))
  else if (entryAt content k).Outside length then .error .invalidImage
  else .error .noSpace

section Source

variable {σ : Type} [ByteSource σ] {content : ByteArray} {place : Nat → σ → Prop}
  (h : ByteSource.Streams content place) {position : Nat} {source : σ}
include h

theorem readRecord_inside (hplace : place position source) {size : Nat}
    (hin : position + size ≤ content.size) :
    ∃ after, readRecord size source =
        .ok (Bytes.toList (Bytes.slice content position size)) after ∧
      place (position + size) after := by
  obtain ⟨after, hread, hafter⟩ := h.readExact_inside hplace hin
  exact ⟨after, bind_of_ok hread _, hafter⟩

theorem readRecord_cutOff (hplace : place position source) (hstart : position ≤ content.size)
    {size : Nat} (hcut : content.size < position + size) :
    ∃ after, readRecord size source = .error .invalidImage after := by
  obtain ⟨after, hread⟩ := h.readExact_cutOff hplace hstart hcut
  exact ⟨after, bind_of_ok hread _⟩

/-- A record that is there is read, and then checked in this order: whether it ends the list,
whether it lies inside the package, and whether there is room for it. -/
theorem readEntries_inside (length room : Nat) {j : Nat} (entries : List Entry)
    (hplace : place (headerSize + j * entrySize) source) (hin : ¬ CutOff content j) :
    ∃ after, place (headerSize + (j + 1) * entrySize) after ∧
      readEntries length room entries source =
        if (entryAt content j).isLast then .ok entries.reverse after
        else if (entryAt content j).Outside length then .error .invalidImage after
        else match room with
          | 0 => .error .noSpace after
          | room + 1 => readEntries length room (entryAt content j :: entries) after := by
  obtain ⟨after, hread, hafter⟩ := readRecord_inside h hplace (Nat.not_lt.mp hin)
  have hnext : headerSize + j * entrySize + entrySize = headerSize + (j + 1) * entrySize := by
    rw [Nat.succ_mul, Nat.add_assoc]
  rw [hnext] at hafter
  refine ⟨after, hafter, ?_⟩
  rw [readEntries]
  refine (bind_of_ok hread _).trans ?_
  unfold entryAt
  dsimp only
  generalize Entry.ofBytes (Bytes.toList (Bytes.slice content _ _)) = entry
  by_cases hlast : entry.isLast = true
  · rw [if_pos hlast, if_pos hlast]
    rfl
  rw [if_neg hlast, if_neg hlast]
  by_cases hfar : length < entry.offset + entry.size
  · have houtside : entry.Outside length := hfar
    rw [if_pos hfar, if_pos houtside]
    rfl
  · have hinside : ¬ entry.Outside length := hfar
    rw [if_neg hfar, if_neg hinside]
    cases room <;> rfl

/-- At a record where reading stops, the entries read so far and this record give the answer. -/
theorem readEntries_of_stops {length room j : Nat} (hroom : room + j = maxEntries)
    (hstart : headerSize + j * entrySize ≤ content.size)
    (hplace : place (headerSize + j * entrySize) source) (hstops : Stops content length j) :
    answerOf (readEntries length room ((List.range j).map (entryAt content)).reverse source) =
      verdict content length j := by
  unfold verdict
  by_cases hcut : CutOff content j
  · obtain ⟨after, hread⟩ := readRecord_cutOff h hplace hstart hcut
    rw [if_pos hcut, readEntries]
    exact congrArg answerOf (bind_of_error hread _)
  obtain ⟨after, -, hstep⟩ := readEntries_inside h length room
    ((List.range j).map (entryAt content)).reverse hplace hcut
  rw [hstep, if_neg hcut]
  by_cases hlast : (entryAt content j).isLast = true
  · rw [if_pos hlast, if_pos hlast, List.reverse_reverse]
    rfl
  rw [if_neg hlast, if_neg hlast]
  by_cases houtside : (entryAt content j).Outside length
  · rw [if_pos houtside, if_pos houtside]
    rfl
  rw [if_neg houtside, if_neg houtside]
  rcases hstops with hcut' | hlast' | houtside' | hfull
  · exact absurd hcut' hcut
  · exact absurd hlast' hlast
  · exact absurd houtside' houtside
  · have hempty : room = 0 := by omega
    subst hempty
    rfl

/-- Any other record becomes one more entry, for which there is room. -/
theorem readEntries_of_not_stops {length room j : Nat} (hroom : room + j = maxEntries)
    (entries : List Entry) (hplace : place (headerSize + j * entrySize) source)
    (hgoes : ¬ Stops content length j) :
    ∃ left after, room = left + 1 ∧ place (headerSize + (j + 1) * entrySize) after ∧
      headerSize + (j + 1) * entrySize ≤ content.size ∧
      readEntries length room entries source =
        readEntries length left (entryAt content j :: entries) after := by
  simp only [Stops, not_or] at hgoes
  obtain ⟨hin, hlast, hinside, hmore⟩ := hgoes
  obtain ⟨after, hafter, hstep⟩ := readEntries_inside h length room entries hplace hin
  have hnext : headerSize + (j + 1) * entrySize ≤ content.size := by
    rw [Nat.succ_mul, ← Nat.add_assoc]
    exact Nat.not_lt.mp hin
  cases room with
  | zero => omega
  | succ left =>
    refine ⟨left, after, rfl, hafter, hnext, ?_⟩
    rw [hstep, if_neg hlast, if_neg hinside]

/-- From record `j` on, reading goes to the first record where it stops, by induction on the room
for more entries. -/
theorem readEntries_verdict (length : Nat) {room j : Nat} (hroom : room + j = maxEntries)
    (hstart : headerSize + j * entrySize ≤ content.size)
    (hplace : place (headerSize + j * entrySize) source) :
    ∃ k, (∀ i, j ≤ i → i < k → ¬ Stops content length i) ∧ Stops content length k ∧
      answerOf (readEntries length room ((List.range j).map (entryAt content)).reverse source) =
        verdict content length k := by
  induction room generalizing j source with
  | zero =>
    have hstops : Stops content length j := .inr (.inr (.inr (by omega)))
    exact ⟨j, fun i hlow hhigh => absurd hlow (Nat.not_le.mpr hhigh), hstops,
      readEntries_of_stops h hroom hstart hplace hstops⟩
  | succ room ih =>
    by_cases hstops : Stops content length j
    · exact ⟨j, fun i hlow hhigh => absurd hlow (Nat.not_le.mpr hhigh), hstops,
        readEntries_of_stops h hroom hstart hplace hstops⟩
    · obtain ⟨left, after, hleft, hafter, hnext, hstep⟩ := readEntries_of_not_stops h hroom
        ((List.range j).map (entryAt content)).reverse hplace hstops
      obtain rfl : room = left := Nat.succ.inj hleft
      obtain ⟨k, hbefore, hk, hrest⟩ := ih (j := j + 1) (by omega) hnext hafter
      have hread : entryAt content j :: ((List.range j).map (entryAt content)).reverse =
          ((List.range (j + 1)).map (entryAt content)).reverse := by
        rw [List.range_succ, List.map_append, List.reverse_append]
        rfl
      rw [hstep, hread]
      refine ⟨k, fun i hlow hhigh => ?_, hk, hrest⟩
      rcases Nat.eq_or_lt_of_le hlow with rfl | hlater
      · exact hstops
      · exact hbefore i hlater hhigh

/-- A package that is too short for its header is refused. -/
theorem readContents_of_short (length : Nat) (hplace : place position source)
    (hsome : 0 < content.size) (hshort : content.size < headerSize) :
    answerOf (readContents length source) = .error .invalidImage := by
  obtain ⟨start, hseek, hstart⟩ := h.seek hsome (by decide) hplace
  obtain ⟨after, hread⟩ := readRecord_cutOff h hstart (Nat.zero_le _)
    (show content.size < 0 + headerSize by omega)
  have hcontents : readContents length source = .error .invalidImage after :=
    (bind_of_ok hseek _).trans (bind_of_error hread _)
  rw [hcontents]
  rfl

/-- The first word of a whole header decides whether the entries are read. -/
theorem readContents_of_header (length : Nat) (hplace : place position source)
    (hheader : headerSize ≤ content.size) :
    ∃ after, place headerSize after ∧ readContents length source =
      if littleEndian ((Bytes.toList content).take 4) ≠ magic then .error .invalidImage after
      else readEntries length maxEntries [] after := by
  have hsome : 0 < content.size := Nat.lt_of_lt_of_le (by decide) hheader
  obtain ⟨start, hseek, hstart⟩ := h.seek hsome (by decide) hplace
  obtain ⟨after, hread, hafter⟩ := readRecord_inside h hstart
    (show 0 + headerSize ≤ content.size by omega)
  have hword : (Bytes.toList (Bytes.slice content 0 headerSize)).take 4 =
      (Bytes.toList content).take 4 := by
    rw [Bytes.toList_slice, List.drop_zero, List.take_take]
    rfl
  rw [Nat.zero_add] at hafter
  refine ⟨after, hafter, ((bind_of_ok hseek _).trans (bind_of_ok hread _)).trans ?_⟩
  rw [hword]
  by_cases hmagic : littleEndian ((Bytes.toList content).take 4) ≠ magic
  · rw [if_pos hmagic, if_pos hmagic]
    rfl
  · rw [if_neg hmagic, if_neg hmagic]

/-- Without a whole header and its first word there is no package. -/
theorem readContents_refused (length : Nat) (hplace : place position source)
    (hsome : 0 < content.size)
    (hbad : content.size < headerSize ∨
      littleEndian ((Bytes.toList content).take 4) ≠ magic) :
    answerOf (readContents length source) = .error .invalidImage := by
  by_cases hshort : content.size < headerSize
  · exact readContents_of_short h length hplace hsome hshort
  · obtain ⟨after, -, hcontents⟩ := readContents_of_header h length hplace (Nat.not_lt.mp hshort)
    rw [hcontents, if_pos (hbad.resolve_left hshort)]
    rfl

/-- Behind the right first word, reading stops at the first record that it can stop at. -/
theorem readContents_verdict (length : Nat) (hplace : place position source)
    (hheader : headerSize ≤ content.size)
    (hmagic : littleEndian ((Bytes.toList content).take 4) = magic) :
    ∃ k, (∀ j < k, ¬ Stops content length j) ∧ Stops content length k ∧
      answerOf (readContents length source) = verdict content length k := by
  obtain ⟨after, hafter, hcontents⟩ := readContents_of_header h length hplace hheader
  obtain ⟨k, hbefore, hk, hentries⟩ := readEntries_verdict h length (j := 0) rfl
    (show headerSize + 0 * entrySize ≤ content.size by omega) (by simpa using hafter)
  refine ⟨k, fun j hj => hbefore j (Nat.zero_le j) hj, hk, ?_⟩
  rw [hcontents, if_neg (not_not_intro hmagic)]
  exact hentries

end Source

section Writing

/-- A number in `count` bytes, least significant first. -/
def littleEndianBytes : (count : Nat) → Nat → List UInt8
  | 0, _ => []
  | count + 1, value => UInt8.ofNat value :: littleEndianBytes count (value / 256)

@[simp] theorem length_littleEndianBytes (count value : Nat) :
    (littleEndianBytes count value).length = count := by
  induction count generalizing value with
  | zero => rfl
  | succ count ih => rw [littleEndianBytes, List.length_cons, ih]

theorem littleEndian_cons (byte : UInt8) (bytes : List UInt8) :
    littleEndian (byte :: bytes) = littleEndian bytes * 256 + byte.toNat :=
  rfl

/-- A number that fits is read back as it was written. -/
theorem littleEndian_littleEndianBytes {count value : Nat} (h : value < Nat.pow 256 count) :
    littleEndian (littleEndianBytes count value) = value := by
  induction count generalizing value with
  | zero =>
    have hzero : value = 0 := Nat.lt_one_iff.mp h
    subst hzero
    rfl
  | succ count ih =>
    have hrest : value / 256 < Nat.pow 256 count :=
      (Nat.div_lt_iff_lt_mul (by decide)).mpr h
    have hbyte : (UInt8.ofNat value).toNat = value % 256 := UInt8.toNat_ofNat
    rw [littleEndianBytes, littleEndian_cons, ih hrest, hbyte]
    omega

namespace Entry

/-- The record of an entry. -/
def toBytes (entry : Entry) : List UInt8 :=
  entry.uuid ++ littleEndianBytes 8 entry.offset ++ littleEndianBytes 8 entry.size ++
    littleEndianBytes 8 entry.flags

/-- The entry has a record: its identifier has 16 bytes, and its numbers have 64 bits. -/
structure Fits (entry : Entry) : Prop where
  uuid : entry.uuid.length = 16
  offset : entry.offset < UInt64.size
  size : entry.size < UInt64.size
  flags : entry.flags < UInt64.size

variable {entry : Entry}

theorem Fits.length_toBytes (h : entry.Fits) : entry.toBytes.length = entrySize := by
  simp only [toBytes, List.length_append, length_littleEndianBytes, h.uuid]
  rfl

/-- An entry is read back from its record. -/
theorem Fits.ofBytes_toBytes (h : entry.Fits) : ofBytes entry.toBytes = entry := by
  obtain ⟨uuid, offset, size, flags⟩ := entry
  obtain ⟨huuid, hoffset, hsize, hflags⟩ := h
  have hnumber {value : Nat} (hvalue : value < UInt64.size) {before after : List UInt8} {n : Nat}
      (hbefore : before.length = n) :
      littleEndian (((before ++ (littleEndianBytes 8 value ++ after)).drop n).take 8) = value := by
    rw [List.drop_left' hbefore, List.take_left' (length_littleEndianBytes 8 value)]
    exact littleEndian_littleEndianBytes hvalue
  have hnothing (bytes : List UInt8) : bytes = bytes ++ [] := (List.append_nil bytes).symm
  have hsecond : (uuid ++ littleEndianBytes 8 offset).length = 24 := by
    rw [List.length_append, huuid, length_littleEndianBytes]
  have hthird : (uuid ++ littleEndianBytes 8 offset ++ littleEndianBytes 8 size).length = 32 := by
    rw [List.length_append, hsecond, length_littleEndianBytes]
  rw [ofBytes, toBytes, mk.injEq]
  refine ⟨?_, ?_, ?_, ?_⟩
  · rw [List.append_assoc, List.append_assoc, List.take_left' huuid]
  · rw [List.append_assoc, List.append_assoc]
    exact hnumber hoffset huuid
  · rw [List.append_assoc]
    exact hnumber hsize hsecond
  · rw [hnothing (littleEndianBytes 8 flags)]
    exact hnumber hflags hthird

end Entry

/-- The header of a package. -/
def headerBytes (serial flags : Nat) : List UInt8 :=
  littleEndianBytes 4 magic ++ littleEndianBytes 4 serial ++ littleEndianBytes 8 flags

theorem length_headerBytes (serial flags : Nat) :
    (headerBytes serial flags).length = headerSize := by
  simp only [headerBytes, List.length_append, length_littleEndianBytes]
  rfl

/-- The records of a table come one behind the other. -/
theorem record_of_table {table : List Entry} (hfits : ∀ entry ∈ table, entry.Fits) {j : Nat}
    (hj : j < table.length) (rest : List UInt8) :
    ((table.flatMap Entry.toBytes ++ rest).drop (j * entrySize)).take entrySize =
      table[j].toBytes := by
  induction table generalizing j with
  | nil => exact absurd hj (Nat.not_lt_zero j)
  | cons entry table ih =>
    have hlength := (hfits entry List.mem_cons_self).length_toBytes
    rw [List.flatMap_cons, List.append_assoc]
    cases j with
    | zero =>
      rw [Nat.zero_mul, List.drop_zero, List.take_left' hlength]
      rfl
    | succ j =>
      have hplace : (j + 1) * entrySize = entry.toBytes.length + j * entrySize := by
        rw [hlength, Nat.succ_mul, Nat.add_comm]
      rw [hplace, ← List.drop_drop, List.drop_left]
      exact ih (fun other hother => hfits other (List.mem_cons_of_mem entry hother))
        (Nat.lt_of_succ_lt_succ hj)

theorem length_flatMap_toBytes {table : List Entry} (hfits : ∀ entry ∈ table, entry.Fits) :
    (table.flatMap Entry.toBytes).length = table.length * entrySize := by
  induction table with
  | nil => rw [List.flatMap_nil, List.length_nil, List.length_nil, Nat.zero_mul]
  | cons entry table ih =>
    rw [List.flatMap_cons, List.length_append, (hfits entry List.mem_cons_self).length_toBytes,
      ih (fun other hother => hfits other (List.mem_cons_of_mem entry hother)), List.length_cons,
      Nat.succ_mul, Nat.add_comm]

section Table

variable {content : ByteArray} {serial flags : Nat} {table : List Entry} {rest : List UInt8}
  (hcontent : Bytes.toList content =
    headerBytes serial flags ++ table.flatMap Entry.toBytes ++ rest)
  (hfits : ∀ entry ∈ table, entry.Fits)
include hcontent hfits

omit hfits in
theorem magic_of_table : littleEndian ((Bytes.toList content).take 4) = magic := by
  rw [hcontent, headerBytes, List.append_assoc, List.append_assoc, List.append_assoc,
    List.take_left' (length_littleEndianBytes 4 magic)]
  rfl

theorem not_cutOff_of_table {j : Nat} (hj : j < table.length) : ¬ CutOff content j := by
  have hsize : content.size = headerSize + table.length * entrySize + rest.length := by
    rw [← Bytes.length_toList, hcontent, List.length_append, List.length_append,
      length_headerBytes, length_flatMap_toBytes hfits]
  have hfirst : (j + 1) * entrySize ≤ table.length * entrySize := Nat.mul_le_mul_right _ hj
  rw [Nat.succ_mul] at hfirst
  unfold CutOff
  omega

theorem entryAt_of_table {j : Nat} (hj : j < table.length) : entryAt content j = table[j] := by
  rw [entryAt, Bytes.toList_slice, hcontent, List.append_assoc, ← List.drop_drop,
    List.drop_left' (length_headerBytes serial flags), record_of_table hfits hj]
  exact (hfits _ (List.getElem_mem hj)).ofBytes_toBytes

end Table

section Written

variable {content : ByteArray} {serial flags length : Nat} {entries : List Entry} {last : Entry}
  {rest : List UInt8}
  (hcontent : Bytes.toList content =
    headerBytes serial flags ++ (entries ++ [last]).flatMap Entry.toBytes ++ rest)
  (hfits : ∀ entry ∈ entries ++ [last], entry.Fits)
include hcontent hfits

theorem entryAt_of_entries {j : Nat} (hj : j < entries.length) :
    entryAt content j = entries[j] := by
  have htable : j < (entries ++ [last]).length := by
    rw [List.length_append]
    omega
  rw [entryAt_of_table hcontent hfits htable, List.getElem_append_left hj]

theorem entryAt_of_last : entryAt content entries.length = last := by
  rw [entryAt_of_table hcontent hfits (by simp), List.getElem_concat_length rfl]

/-- Reading stops at the entry that ends the list, and nowhere before it. -/
theorem first_stop_of_entries (hcount : entries.length ≤ maxEntries)
    (hentries : ∀ entry ∈ entries, entry.isLast = false ∧ ¬ entry.Outside length)
    (hlast : last.isLast = true) {k : Nat} (hbefore : ∀ j < k, ¬ Stops content length j)
    (hk : Stops content length k) : k = entries.length := by
  have hend : Stops content length entries.length := by
    refine .inr (.inl ?_)
    rw [entryAt_of_last hcontent hfits]
    exact hlast
  have hnone (j : Nat) (hj : j < entries.length) : ¬ Stops content length j := by
    obtain ⟨hmore, hinside⟩ := hentries entries[j] (List.getElem_mem hj)
    rintro (hcut | hstop | houtside | hfull)
    · exact not_cutOff_of_table hcontent hfits (by simp; omega) hcut
    · rw [entryAt_of_entries hcontent hfits hj, hmore] at hstop
      cases hstop
    · rw [entryAt_of_entries hcontent hfits hj] at houtside
      exact hinside houtside
    · omega
  rcases Nat.lt_trichotomy k entries.length with hless | hsame | hmore
  · exact absurd hk (hnone k hless)
  · exact hsame
  · exact absurd hend (hbefore _ hmore)

theorem verdict_of_entries (hlast : last.isLast = true) :
    verdict content length entries.length = .ok entries := by
  have hwhole : ¬ CutOff content entries.length :=
    not_cutOff_of_table hcontent hfits (by simp)
  have hall : (List.range entries.length).map (entryAt content) = entries := by
    apply List.ext_getElem (by simp)
    intro j hmap hj
    rw [List.getElem_map, List.getElem_range, entryAt_of_entries hcontent hfits hj]
  rw [verdict, if_neg hwhole, entryAt_of_last hcontent hfits, if_pos hlast, hall]

end Written

end Writing

/-- Reading the table of contents over an entity on memory, whose window lies inside the memory:
from any position of the cursor and whatever else is in the pool, the answer depends on the bytes
of the window alone. Without a header and its first word there is no package; behind it the first
record that is cut off, ends the list, lies outside the package or is one too many gives the
answer, and so a table that was written down is read back whatever follows it. -/
theorem readContents_exact {ε : Type} [Device ε] {reader : EntityReader (MemoryDevice ⊕ ε)}
    {device : MemoryDevice} {window : Window}
    (hopen : reader.pool.slots[reader.entity.index]? =
      some (some ⟨reader.entity.key, .inl device, some window⟩))
    (hsome : 0 < window.size) (hinside : window.base + window.size ≤ device.memory.size)
    (length : Nat) :
    let content := Bytes.slice device.memory window.base window.size
    let answer := answerOf (readContents length reader)
    (content.size < 16 ∨ littleEndian ((Bytes.toList content).take 4) ≠ 0xaa640001 →
      answer = .error .invalidImage) ∧
    (16 ≤ content.size → littleEndian ((Bytes.toList content).take 4) = 0xaa640001 →
      ∃ k, (∀ j < k, ¬ Stops content length j) ∧ Stops content length k ∧
        answer =
          if CutOff content k then .error .invalidImage
          else if (entryAt content k).isLast then .ok ((List.range k).map (entryAt content))
          else if (entryAt content k).Outside length then .error .invalidImage
          else .error .noSpace) ∧
    ∀ (serial flags : Nat) (entries : List Entry) (last : Entry) (rest : List UInt8),
      entries.length ≤ 16 → (∀ entry ∈ entries ++ [last], entry.Fits) →
      (∀ entry ∈ entries, entry.isLast = false ∧ entry.offset + entry.size ≤ length) →
      last.isLast = true →
      Bytes.toList content = headerBytes serial flags ++
        (entries ++ [last]).flatMap Entry.toBytes ++ rest →
      answer = .ok entries := by
  intro content answer
  obtain ⟨hindex, -⟩ := List.getElem?_eq_some_iff.mp hopen
  have hstreams := EntityReader.streams_opened hindex hinside
  have hplace := EntityReader.eq_opened hopen
  have hfilled : 0 < content.size := by
    rw [Bytes.size_slice]
    omega
  have hverdict (hheader : headerSize ≤ content.size)
      (hmagic : littleEndian ((Bytes.toList content).take 4) = magic) :=
    readContents_verdict hstreams length hplace hheader hmagic
  refine ⟨readContents_refused hstreams length hplace hfilled, hverdict, ?_⟩
  intro serial flags entries last rest hcount hfits hentries hlast hcontent
  have hwhole : ¬ CutOff content 0 := not_cutOff_of_table hcontent hfits (by simp)
  have hheader : headerSize ≤ content.size := by
    unfold CutOff at hwhole
    omega
  have hinner (entry : Entry) (hentry : entry ∈ entries) :
      entry.isLast = false ∧ ¬ entry.Outside length :=
    ⟨(hentries entry hentry).1, Nat.not_lt.mpr (hentries entry hentry).2⟩
  obtain ⟨k, hbefore, hk, hanswer⟩ := hverdict hheader (magic_of_table hcontent)
  have hstop := first_stop_of_entries hcontent hfits hcount hinner hlast hbefore hk
  rw [hstop, verdict_of_entries hcontent hfits hlast] at hanswer
  exact hanswer

/-- An image of 64 bytes at the start of the second block of 256 bytes. -/
def sampleEntry : Entry :=
  ⟨List.replicate 16 0x5f, 0x100, 0x40, 0⟩

def sampleEnd : Entry :=
  ⟨List.replicate 16 0, 0, 0, 0⟩

/-- A table with this one entry, three bytes behind the start of a memory. -/
def sampleDevice : MemoryDevice :=
  ⟨7, Bytes.ofList ([1, 2, 3] ++ (headerBytes 0x1234 0 ++
    ([sampleEntry] ++ [sampleEnd]).flatMap Entry.toBytes ++ [4, 5]))⟩

def sampleWindow : Window :=
  ⟨3, 98, 50⟩

/-- The memory in the second slot of a pool, with its cursor in the middle of the window. -/
def sampleReader : EntityReader (MemoryDevice ⊕ MemoryDevice) :=
  ⟨⟨[none, some ⟨7, .inl sampleDevice, some sampleWindow⟩], [.memory], 1⟩, ⟨1, 7⟩⟩

/-- The table is read back when its image just ends within the package, and refused when the
package is one byte shorter. -/
theorem readContents_exact_sampleReader :
    0 < sampleWindow.size ∧
      sampleWindow.base + sampleWindow.size ≤ sampleDevice.memory.size ∧
      answerOf (readContents 0x140 sampleReader) = .ok [sampleEntry] ∧
      answerOf (readContents 0x13f sampleReader) = .error .invalidImage := by
  have hsome : 0 < sampleWindow.size := by decide
  have hinside : sampleWindow.base + sampleWindow.size ≤ sampleDevice.memory.size := by decide
  have hfits : ∀ entry ∈ [sampleEntry] ++ [sampleEnd], entry.Fits := by
    intro entry hentry
    simp only [List.cons_append, List.nil_append, List.mem_cons, List.not_mem_nil, or_false]
      at hentry
    rcases hentry with rfl | rfl
    · exact ⟨by decide, by decide, by decide, by decide⟩
    · exact ⟨by decide, by decide, by decide, by decide⟩
  have hcontent : Bytes.toList (Bytes.slice sampleDevice.memory sampleWindow.base
      sampleWindow.size) =
        headerBytes 0x1234 0 ++ ([sampleEntry] ++ [sampleEnd]).flatMap Entry.toBytes ++ [4, 5] := by
    rw [Bytes.toList_slice]
    exact List.take_of_length_le (by decide)
  have hentry := entryAt_of_entries hcontent hfits (show 0 < [sampleEntry].length by decide)
  have hwhole := not_cutOff_of_table hcontent hfits (j := 0) (by decide)
  obtain ⟨-, -, hwritten⟩ :=
    @readContents_exact MemoryDevice _ sampleReader _ _ rfl hsome hinside 0x140
  obtain ⟨-, hstopped, -⟩ :=
    @readContents_exact MemoryDevice _ sampleReader _ _ rfl hsome hinside 0x13f
  refine ⟨hsome, hinside, ?_, ?_⟩
  · exact hwritten 0x1234 0 [sampleEntry] sampleEnd [4, 5] (by decide) hfits (by decide)
      (by decide) hcontent
  · have houtside : sampleEntry.Outside 0x13f := by decide
    obtain ⟨k, hbefore, -, hanswer⟩ := hstopped (by decide) (magic_of_table hcontent)
    have hfirst : k = 0 := by
      refine Nat.eq_zero_of_not_pos fun hk => hbefore 0 hk (.inr (.inr (.inl ?_)))
      rw [hentry]
      exact houtside
    subst hfirst
    rw [if_neg hwhole, hentry] at hanswer
    exact hanswer

end NorFlash.Package
