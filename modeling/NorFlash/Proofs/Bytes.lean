import NorFlash.Bytes

/-!
Byte arrays position by position: what a slice, an overlay and a single store leave at each
position.
-/
namespace NorFlash.Bytes

theorem byteAt_eq_getD (bytes : ByteArray) (i : Nat) :
    byteAt bytes i = (toList bytes)[i]?.getD 0 := by
  by_cases h : i < bytes.size
  · have hl : i < (toList bytes).length := by simpa using h
    rw [byteAt, dif_pos h, List.getElem?_eq_getElem hl]
    rfl
  · have hl : (toList bytes).length ≤ i := by simpa using h
    rw [byteAt, dif_neg h, List.getElem?_eq_none hl]
    rfl

theorem toList_injective {a b : ByteArray} (h : toList a = toList b) : a = b := by
  cases a
  cases b
  simp only [toList] at h
  rw [Array.toList_inj.mp h]

theorem bne_iff {a b : ByteArray} : (a != b) = true ↔ a ≠ b := by
  have hbeq : (a == b) = true ↔ a = b := by
    constructor
    · intro h
      exact toList_injective (congrArg Array.toList (eq_of_beq (α := Array UInt8) h))
    · rintro rfl
      exact beq_self_eq_true a.data
  rw [bne, Bool.not_eq_true', ← Bool.not_eq_true, hbeq]

theorem ext_byteAt {a b : ByteArray} (hsize : a.size = b.size)
    (h : ∀ i, i < a.size → byteAt a i = byteAt b i) : a = b := by
  apply toList_injective
  apply List.ext_getElem
  · exact hsize
  · intro i ha hb
    have hbyte := h i ha
    rwa [byteAt_eq_getD, byteAt_eq_getD, List.getElem?_eq_getElem ha, List.getElem?_eq_getElem hb,
      Option.getD_some, Option.getD_some] at hbyte

@[simp] theorem ofList_toList (bytes : ByteArray) : ofList (toList bytes) = bytes :=
  toList_injective rfl

@[simp] theorem toList_empty : toList .empty = [] :=
  rfl

@[simp] theorem ofList_nil : ofList [] = .empty :=
  rfl

@[simp] theorem size_ofList (bytes : List UInt8) : (ofList bytes).size = bytes.length :=
  rfl

@[simp] theorem byteAt_ofList (bytes : List UInt8) (i : Nat) :
    byteAt (ofList bytes) i = bytes[i]?.getD 0 := by
  rw [byteAt_eq_getD, toList_ofList]

@[simp] theorem toList_push (bytes : ByteArray) (byte : UInt8) :
    toList (bytes.push byte) = toList bytes ++ [byte] := by
  simp [toList, ByteArray.data_push]

@[simp] theorem toList_append (a b : ByteArray) : toList (a ++ b) = toList a ++ toList b := by
  simp [toList, ByteArray.data_append]

@[simp] theorem size_slice (bytes : ByteArray) (start length : Nat) :
    (slice bytes start length).size = min length (bytes.size - start) := by
  rw [← length_toList, toList_slice, List.length_take, List.length_drop, length_toList]

@[simp] theorem slice_zero (bytes : ByteArray) (start : Nat) : slice bytes start 0 = .empty :=
  toList_injective (by simp)

/-- Two slices that meet are one. -/
theorem slice_append_slice (bytes : ByteArray) (start m n : Nat) :
    slice bytes start m ++ slice bytes (start + m) n = slice bytes start (m + n) := by
  apply toList_injective
  rw [toList_append, toList_slice, toList_slice, toList_slice, List.take_add, List.drop_drop]

/-- A slice of a slice, both of them cut off where the outer one ends. -/
theorem slice_slice (bytes : ByteArray) (start length place n : Nat) :
    slice (slice bytes start length) place n =
      slice bytes (start + place) (min n (length - place)) := by
  apply toList_injective
  rw [toList_slice, toList_slice, toList_slice, List.drop_take, List.drop_drop, List.take_take]

theorem byteAt_slice (bytes : ByteArray) (start length i : Nat) :
    byteAt (slice bytes start length) i = if i < length then byteAt bytes (start + i) else 0 := by
  rw [byteAt_eq_getD, byteAt_eq_getD, toList_slice]
  split
  case isTrue h => rw [List.getElem?_take_of_lt h, List.getElem?_drop]
  case isFalse h => rw [List.getElem?_take_eq_none (by omega), Option.getD_none]

/-- A slice that is not cut off, byte by byte. -/
theorem toList_slice_eq_map {bytes : ByteArray} {start length : Nat}
    (h : start + length ≤ bytes.size) :
    toList (slice bytes start length) =
      (List.range length).map fun i => byteAt bytes (start + i) := by
  apply List.ext_getElem
  · simp only [length_toList, size_slice, List.length_map, List.length_range]
    omega
  · intro i hi hmap
    have hbyte := byteAt_slice bytes start length i
    rw [byteAt_eq_getD, List.getElem?_eq_getElem hi, Option.getD_some, if_pos (by simpa using hmap)]
      at hbyte
    simpa using hbyte

theorem resize_self (bytes : ByteArray) : resize bytes bytes.size = bytes := by
  apply toList_injective
  simp [resize, toList]

theorem resize_of_le {bytes : ByteArray} {length : Nat} (h : length ≤ bytes.size) :
    resize bytes length = slice bytes 0 length := by
  rw [resize, if_neg (Nat.not_lt.mpr h), slice, Nat.zero_add]

@[simp] theorem slice_self (bytes : ByteArray) : slice bytes 0 bytes.size = bytes := by
  rw [← resize_of_le (Nat.le_refl _), resize_self]

theorem toList_resize (bytes : ByteArray) (length : Nat) :
    toList (resize bytes length) =
      (toList bytes).take length ++ List.replicate (length - bytes.size) 0 := by
  unfold resize
  split
  case isTrue h =>
    rw [toList_append, toList_fill, List.take_of_length_le (by simpa using Nat.le_of_lt h)]
  case isFalse h =>
    rw [Nat.sub_eq_zero_of_le (Nat.not_lt.mp h), List.replicate_zero, List.append_nil]
    simp [toList, ByteArray.data_extract]

@[simp] theorem size_resize (bytes : ByteArray) (length : Nat) :
    (resize bytes length).size = length := by
  rw [← length_toList, toList_resize, List.length_append, List.length_take, List.length_replicate,
    length_toList]
  omega

/-- The start of a longer prefix is the shorter one. -/
theorem slice_resize (bytes : ByteArray) {count length : Nat} (h : count ≤ length) :
    slice (resize bytes length) 0 count = resize bytes count := by
  apply toList_injective
  rw [toList_slice, toList_resize, toList_resize, List.drop_zero, List.take_append,
    List.take_take, List.take_replicate, Nat.min_eq_left h, List.length_take, length_toList]
  congr 2
  omega

@[simp] theorem byteAt_fill (n i : Nat) (byte : UInt8) :
    byteAt (fill n byte) i = if i < n then byte else 0 := by
  rw [byteAt_eq_getD, toList_fill, List.getElem?_replicate]
  split <;> rfl

@[simp] theorem size_fill (n : Nat) (byte : UInt8) : (fill n byte).size = n := by
  rw [← length_toList, toList_fill, List.length_replicate]

theorem toList_overlay (target : ByteArray) (start : Nat) (source : ByteArray) :
    toList (overlay target start source) =
      (toList target).take start ++ toList source ++
        (toList target).drop (start + source.size) := by
  have hs : source.data.size = source.size := rfl
  have ht : target.data.size = target.size := rfl
  simp only [toList, overlay, ByteArray.copySlice, hs, ht, Array.toList_append,
    Array.toList_extract, List.extract_eq_take_drop, List.drop_zero, Nat.sub_zero, Nat.zero_add,
    Nat.min_self]
  congr 1
  · congr 1
    exact List.take_of_length_le (by simp [hs])
  · exact List.take_of_length_le (by simp [ht])

theorem size_overlay {target source : ByteArray} {start : Nat}
    (h : start + source.size ≤ target.size) :
    (overlay target start source).size = target.size := by
  rw [← length_toList, toList_overlay]
  simp only [List.length_append, List.length_take, List.length_drop, length_toList]
  omega

theorem byteAt_overlay {target source : ByteArray} {start : Nat}
    (h : start + source.size ≤ target.size) (i : Nat) :
    byteAt (overlay target start source) i =
      if start ≤ i ∧ i < start + source.size then byteAt source (i - start)
      else byteAt target i := by
  have hlen : ((toList target).take start ++ toList source).length = start + source.size := by
    simp only [List.length_append, List.length_take, length_toList]
    omega
  have htake : ((toList target).take start).length = start := by
    simp only [List.length_take, length_toList]
    omega
  simp only [byteAt_eq_getD, toList_overlay]
  by_cases hlow : i < start
  · rw [if_neg (by omega), List.getElem?_append_left (by omega),
      List.getElem?_append_left (by omega), List.getElem?_take_of_lt hlow]
  · by_cases hmid : i < start + source.size
    · rw [if_pos (by omega), List.getElem?_append_left (by omega),
        List.getElem?_append_right (by omega), htake]
    · rw [if_neg (by omega), List.getElem?_append_right (by omega), hlen, List.getElem?_drop]
      congr 2
      omega

@[simp] theorem overlay_empty (target : ByteArray) (start : Nat) :
    overlay target start .empty = target := by
  apply toList_injective
  rw [toList_overlay, toList_empty, List.append_nil, ByteArray.size_empty, Nat.add_zero,
    List.take_append_drop]

/-- What is laid over the start of an array is a prefix of what there is then. -/
theorem slice_overlay (target source : ByteArray) :
    slice (overlay target 0 source) 0 source.size = source := by
  apply toList_injective
  rw [toList_slice, toList_overlay, List.take_zero, List.nil_append, List.drop_zero,
    List.take_left' (length_toList source)]

/-- An array laid over one that is no longer replaces it. -/
theorem overlay_all {target source : ByteArray} (h : target.size ≤ source.size) :
    overlay target 0 source = source := by
  apply toList_injective
  rw [toList_overlay, List.take_zero, List.nil_append, List.drop_eq_nil_of_le, List.append_nil]
  rw [length_toList]
  omega

/-- Two pieces laid one behind the other are laid as one. -/
theorem overlay_overlay {target first second : ByteArray} {start : Nat}
    (h : start ≤ target.size) :
    overlay (overlay target start first) (start + first.size) second =
      overlay target start (first ++ second) := by
  have hlen : ((toList target).take start ++ toList first).length = start + first.size := by
    simp only [List.length_append, List.length_take, length_toList]
    omega
  apply toList_injective
  rw [toList_overlay, toList_overlay, toList_overlay, List.take_left' hlen, List.drop_append,
    hlen, List.drop_eq_nil_of_le (by omega), List.nil_append, List.drop_drop, toList_append,
    List.append_assoc (_ ++ _), List.append_assoc, List.append_assoc, List.append_assoc,
    ByteArray.size_append]
  congr 3
  congr 1
  omega

@[simp] theorem size_set! (bytes : ByteArray) (place : Nat) (byte : UInt8) :
    (bytes.set! place byte).size = bytes.size :=
  Array.size_setIfInBounds

theorem byteAt_set! (bytes : ByteArray) {place : Nat} (h : place < bytes.size) (byte : UInt8)
    (i : Nat) :
    byteAt (bytes.set! place byte) i = if i = place then byte else byteAt bytes i := by
  have hl : place < (toList bytes).length := by simpa using h
  have hset : toList (bytes.set! place byte) = (toList bytes).set place byte := by
    rw [toList, ByteArray.set!, Array.set!_eq_setIfInBounds, Array.toList_setIfInBounds, toList]
  rw [byteAt_eq_getD, byteAt_eq_getD, hset, List.getElem?_set]
  by_cases hi : place = i
  · rw [if_pos hi, if_pos hi.symm, if_pos hl, Option.getD_some]
  · rw [if_neg hi, if_neg (Ne.symm hi)]

end NorFlash.Bytes
