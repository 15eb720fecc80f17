import NorFlash.Proofs.Contents

/-!
The images that a table of contents lists. What the table was accepted for, that each image ends
within the package, is what a read of the image needs: its seek stays inside the window, and all
of its bytes are there.
-/
namespace NorFlash.Package

open NorFlash.Block

/-- A buffer that is too short is refused before anything is read. -/
theorem readImageInto_of_short {σ : Type} [ByteSource σ] {entry : Entry} {buffer : ByteArray}
    (hshort : buffer.size < entry.size) (source : σ) :
    readImageInto entry buffer source = .error .bufferTooSmall source := by
  rw [readImageInto, if_pos hshort]
  rfl

section Source

variable {σ : Type} [ByteSource σ] {content : ByteArray} {place : Nat → σ → Prop}
  (h : ByteSource.Streams content place) {position : Nat} {source : σ}
  (hplace : place position source)
include h hplace

/-- Each image that is listed ends within the package. -/
theorem inside_of_listed (hsome : 0 < content.size) {length : Nat} {entries : List Entry}
    (hlist : answerOf (readContents length source) = .ok entries) {entry : Entry}
    (hentry : entry ∈ entries) : entry.offset + entry.size ≤ length := by
  by_cases hbad : content.size < headerSize ∨ littleEndian ((Bytes.toList content).take 4) ≠ magic
  · have hrefused := readContents_refused h length hplace hsome hbad
    cases hrefused.symm.trans hlist
  · obtain ⟨hheader, hmagic⟩ := not_or.mp hbad
    obtain ⟨k, hbefore, -, hanswer⟩ := readContents_verdict h length hplace
      (Nat.not_lt.mp hheader) (Decidable.of_not_not hmagic)
    have hverdict : verdict content length k = .ok entries := hanswer.symm.trans hlist
    unfold verdict at hverdict
    split at hverdict
    · cases hverdict
    split at hverdict
    · cases hverdict
      obtain ⟨j, hj, rfl⟩ := List.mem_map.mp hentry
      exact Nat.not_lt.mp fun houtside =>
        hbefore j (List.mem_range.mp hj) (.inr (.inr (.inl houtside)))
    split at hverdict
    · cases hverdict
    · cases hverdict

/-- An image that is all there fills the front of a buffer that is long enough. An empty image
takes no seek, so it may begin where the content ends. -/
theorem readImageInto_inside {entry : Entry} (hin : entry.offset + entry.size ≤ content.size)
    (hsigned : content.size < 0x8000000000000000) {buffer : ByteArray}
    (hroom : entry.size ≤ buffer.size) :
    ∃ after, readImageInto entry buffer source =
        .ok (entry.size, Bytes.overlay buffer 0 (Bytes.slice content entry.offset entry.size))
          after ∧
      place (if entry.size = 0 then position else entry.offset + entry.size) after := by
  rw [readImageInto, if_neg (Nat.not_lt.mpr hroom)]
  by_cases hzero : entry.size = 0
  · rw [if_pos hzero, if_pos hzero, hzero, Bytes.slice_zero, Bytes.overlay_empty]
    exact ⟨source, rfl, hplace⟩
  · rw [if_neg hzero, if_neg hzero]
    obtain ⟨start, hseek, hstart⟩ := h.seek (show entry.offset < content.size by omega)
      (show entry.offset < 0x8000000000000000 by omega) hplace
    obtain ⟨after, hread, hafter⟩ := h.readExact_inside hstart hin
    exact ⟨after, (bind_of_ok hseek _).trans (bind_of_ok hread _), hafter⟩

end Source

/-- Every image that a table of contents lists can be read back: over an entity on memory, whose
window lies inside the memory, and for a package no longer than the window. Whatever the cursor is
and whatever else is in the pool, a buffer that is long enough holds the image in front and is
otherwise as it was, and a shorter one is refused without moving the cursor. No memory has as many
bytes as there are non-negative signed words. -/
theorem listed_images_readable {ε : Type} [Device ε] {reader : EntityReader (MemoryDevice ⊕ ε)}
    {device : MemoryDevice} {window : Window}
    (hopen : reader.pool.slots[reader.entity.index]? =
      some (some ⟨reader.entity.key, .inl device, some window⟩))
    (hsome : 0 < window.size) (hinside : window.base + window.size ≤ device.memory.size)
    (hmemory : device.memory.size < 0x8000000000000000) {length : Nat}
    (hlength : length ≤ window.size) {entries : List Entry}
    (hlist : answerOf (readContents length reader) = .ok entries) {entry : Entry}
    (hentry : entry ∈ entries) {other : EntityReader (MemoryDevice ⊕ ε)} {cursor : Nat}
    (hother : other.pool.slots[other.entity.index]? =
      some (some ⟨other.entity.key, .inl device, some { window with cursor }⟩))
    (buffer : ByteArray) :
    let content := Bytes.slice device.memory window.base window.size
    let moved := if entry.size = 0 then cursor else entry.offset + entry.size
    entry.offset + entry.size ≤ content.size ∧
    (entry.size ≤ buffer.size → ∃ filled,
      readImageInto entry buffer other = .ok (entry.size, filled)
        (.opened other.pool other.entity (.inl device) { window with cursor := moved }) ∧
      Bytes.slice filled 0 entry.size = Bytes.slice content entry.offset entry.size ∧
      filled.size = buffer.size ∧
      ∀ i, entry.size ≤ i → Bytes.byteAt filled i = Bytes.byteAt buffer i) ∧
    (buffer.size < entry.size →
      readImageInto entry buffer other = .error .bufferTooSmall other) := by
  intro content moved
  obtain ⟨hindex, -⟩ := List.getElem?_eq_some_iff.mp hopen
  obtain ⟨hindex', -⟩ := List.getElem?_eq_some_iff.mp hother
  have hsize : content.size = window.size := by
    rw [Bytes.size_slice]
    omega
  have hlisted := inside_of_listed (EntityReader.streams_opened hindex hinside)
    (EntityReader.eq_opened hopen) (show 0 < content.size by omega) hlist hentry
  have hin : entry.offset + entry.size ≤ content.size := by omega
  have hsigned : content.size < 0x8000000000000000 := by omega
  refine ⟨hin, fun hroom => ?_, fun hshort => readImageInto_of_short hshort other⟩
  have hstreams := @EntityReader.streams_opened ε _ other.pool other.entity hindex' device
    { window with cursor } hinside
  obtain ⟨after, hread, hafter⟩ :=
    readImageInto_inside hstreams (EntityReader.eq_opened hother) hin hsigned hroom
  let image := Bytes.slice content entry.offset entry.size
  have himage : image.size = entry.size := by
    rw [Bytes.size_slice]
    omega
  have hfits : 0 + image.size ≤ buffer.size := by omega
  refine ⟨Bytes.overlay buffer 0 image, ?_, ?_, Bytes.size_overlay hfits, fun i hi => ?_⟩
  · rw [hread, hafter]
  · have hfront := Bytes.slice_overlay buffer image
    rwa [himage] at hfront
  · rw [Bytes.byteAt_overlay hfits, if_neg (by omega)]

/-- An image of two bytes, and an empty one. -/
def bootImage : Entry :=
  ⟨List.replicate 16 0x5f, 136, 2, 0⟩

def noImage : Entry :=
  ⟨List.replicate 16 0x97, 138, 0, 0⟩

/-- A package with these two, which ends where the empty image begins. -/
def bootDevice : MemoryDevice :=
  ⟨7, Bytes.ofList (headerBytes 0 0 ++
    ([bootImage, noImage] ++ [sampleEnd]).flatMap Entry.toBytes ++ [4, 5])⟩

/-- The package in the only slot of a pool. -/
def bootReader (cursor : Nat) : EntityReader (MemoryDevice ⊕ MemoryDevice) :=
  ⟨⟨[some ⟨7, .inl bootDevice, some ⟨0, 138, cursor⟩⟩], [.memory], 1⟩, ⟨0, 7⟩⟩

theorem size_bootDevice : bootDevice.memory.size = 138 := by
  rfl

theorem readContents_bootReader :
    answerOf (readContents 138 (bootReader 50)) = .ok [bootImage, noImage] := by
  have hfits : ∀ entry ∈ [bootImage, noImage] ++ [sampleEnd], entry.Fits := by
    intro entry hentry
    simp only [List.cons_append, List.nil_append, List.mem_cons, List.not_mem_nil, or_false]
      at hentry
    rcases hentry with rfl | rfl | rfl
    · exact ⟨by decide, by decide, by decide, by decide⟩
    · exact ⟨by decide, by decide, by decide, by decide⟩
    · exact ⟨by decide, by decide, by decide, by decide⟩
  have hcontent : Bytes.toList (Bytes.slice bootDevice.memory 0 138) =
      headerBytes 0 0 ++ ([bootImage, noImage] ++ [sampleEnd]).flatMap Entry.toBytes ++ [4, 5] := by
    rw [← size_bootDevice, Bytes.slice_self]
    rfl
  have hwhole : (Bytes.slice bootDevice.memory 0 138).size = 138 := by
    rw [Bytes.size_slice, size_bootDevice]
    rfl
  have hstreams := @EntityReader.streams_opened MemoryDevice _ (bootReader 50).pool ⟨0, 7⟩
    (by decide) bootDevice ⟨0, 138, 50⟩ (Nat.le_of_eq size_bootDevice.symm)
  obtain ⟨k, hbefore, hk, hanswer⟩ := readContents_verdict hstreams 138
    (EntityReader.eq_opened rfl) (show 16 ≤ _ by rw [hwhole]; decide) (magic_of_table hcontent)
  have hstop := first_stop_of_entries hcontent hfits (by decide) (by decide) (by decide) hbefore hk
  rwa [hstop, verdict_of_entries hcontent hfits (by decide)] at hanswer

/-- Both images are read from the end of the window; one byte is too few for the first. -/
theorem listed_images_readable_bootReader :
    answerOf (readContents 138 (bootReader 50)) = .ok [bootImage, noImage] ∧
      (∃ filled, readImageInto bootImage (Bytes.ofList [1, 2, 3]) (bootReader 138) =
          .ok (2, filled) (bootReader 138) ∧
        Bytes.slice filled 0 2 = Bytes.slice bootDevice.memory 136 2 ∧ filled.size = 3 ∧
        Bytes.byteAt filled 2 = 3) ∧
      readImageInto bootImage (Bytes.ofList [1]) (bootReader 138) =
        .error .bufferTooSmall (bootReader 138) ∧
      ∃ filled, readImageInto noImage .empty (bootReader 138) = .ok (0, filled) (bootReader 138) := by
  have hread {entry : Entry} (hentry : entry ∈ [bootImage, noImage]) :=
    @listed_images_readable MemoryDevice _ (bootReader 50) bootDevice ⟨0, 138, 50⟩ rfl
      (by decide) (Nat.le_of_eq size_bootDevice.symm) (by rw [size_bootDevice]; decide) 138
      (Nat.le_refl _) _ readContents_bootReader entry hentry (bootReader 138) 138 rfl
  obtain ⟨-, hlong, -⟩ := hread (List.mem_cons_self ..) (Bytes.ofList [1, 2, 3])
  obtain ⟨-, -, hshort⟩ := hread (List.mem_cons_self ..) (Bytes.ofList [1])
  obtain ⟨-, hnone, -⟩ := hread (List.mem_cons_of_mem _ (List.mem_cons_self ..)) .empty
  obtain ⟨filled, hfilled, hfront, hsize, hrest⟩ := hlong (by decide)
  obtain ⟨unfilled, hunfilled, -⟩ := hnone (by decide)
  refine ⟨readContents_bootReader, ⟨filled, hfilled, ?_, hsize, hrest 2 (Nat.le_refl _)⟩,
    hshort (by decide), unfilled, hunfilled⟩
  rw [Bytes.slice_slice] at hfront
  exact hfront

end NorFlash.Package
