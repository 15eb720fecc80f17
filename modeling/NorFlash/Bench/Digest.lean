import NorFlash.Text.Hex

/-!
Short forms of long records: the 64-bit FNV-1a hash of bytes, and a list of events with its middle
replaced by a count and a hash.
-/
namespace NorFlash.Bench

def hashFrom (bytes : ByteArray) : (left i : Nat) → UInt64 → UInt64
  | 0, _, hash => hash
  | left + 1, i, hash =>
    hashFrom bytes left (i + 1) ((hash ^^^ (bytes.get! i).toUInt64) * 0x100000001b3)

def hash (bytes : ByteArray) : UInt64 :=
  hashFrom bytes bytes.size 0 0xcbf29ce484222325

def digest (bytes : ByteArray) : String :=
  Text.Hex.padded 16 (hash bytes).toNat

/-- At most 40 events; of more, the first 16 and the last 8 around a digest of all. -/
def foldEvents (events : List String) : List String :=
  let count := events.length
  if count ≤ 40 then
    events
  else
    let middle := "... " ++ toString count ++ " " ++ digest ("\n".intercalate events).toUTF8
    events.take 16 ++ middle :: events.drop (count - 8)

end NorFlash.Bench
