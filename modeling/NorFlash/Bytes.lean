/-!
Byte arrays as memory: an array filled with one byte, the slice `[start, start + length)`, and
one array laid over another. Each operation is described by the list of bytes it leaves.
-/
namespace NorFlash.Bytes

def ofList (bytes : List UInt8) : ByteArray :=
  ⟨bytes.toArray⟩

def toList (bytes : ByteArray) : List UInt8 :=
  bytes.data.toList

@[simp] theorem toList_ofList (bytes : List UInt8) : toList (ofList bytes) = bytes :=
  rfl

@[simp] theorem length_toList (bytes : ByteArray) : (toList bytes).length = bytes.size :=
  rfl

/-- An array of `n` copies of `byte`, built by doubling. -/
def fill (n : Nat) (byte : UInt8) : ByteArray :=
  if n = 0 then
    .empty
  else
    let half := fill (n / 2) byte
    let both := half ++ half
    if n % 2 = 1 then both.push byte else both

@[simp] theorem toList_fill (n : Nat) (byte : UInt8) :
    toList (fill n byte) = List.replicate n byte := by
  induction n using Nat.strongRecOn with
  | _ n ih =>
    rw [fill]
    by_cases h : n = 0
    · simp [h, toList]
    · have hlt : n / 2 < n := by omega
      have half := ih _ hlt
      simp only [toList] at half ⊢
      by_cases odd : n % 2 = 1
      · simp only [h, odd, ↓reduceIte, ByteArray.data_push, ByteArray.data_append,
          Array.toList_push, Array.toList_append, half, List.replicate_append_replicate]
        rw [← List.replicate_succ']
        congr 1
        omega
      · simp only [h, odd, ↓reduceIte, ByteArray.data_append, Array.toList_append, half,
          List.replicate_append_replicate]
        congr 1
        omega

/-- The bytes of `[start, start + length)`, cut off at the end of the array. -/
def slice (bytes : ByteArray) (start length : Nat) : ByteArray :=
  bytes.extract start (start + length)

@[simp] theorem toList_slice (bytes : ByteArray) (start length : Nat) :
    toList (slice bytes start length) = ((toList bytes).drop start).take length := by
  simp [toList, slice, List.take_drop, ByteArray.data_extract]

/-- The array with `source` copied to `start`; callers keep `start + source.size` within it. -/
def overlay (target : ByteArray) (start : Nat) (source : ByteArray) : ByteArray :=
  source.copySlice 0 target start source.size

/-- The first `length` bytes, with zeros after the end. -/
def resize (bytes : ByteArray) (length : Nat) : ByteArray :=
  if bytes.size < length then bytes ++ fill (length - bytes.size) 0
  else bytes.extract 0 length

def byteAt (bytes : ByteArray) (i : Nat) : UInt8 :=
  if h : i < bytes.size then bytes[i] else 0

end NorFlash.Bytes
