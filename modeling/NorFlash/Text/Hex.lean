/-!
Hexadecimal text of numbers and bytes. Digits are lower case.
-/
namespace NorFlash.Text.Hex

def digit (n : Nat) : Char :=
  if n < 10 then Char.ofNat (48 + n) else Char.ofNat (87 + n)

def ofNat (n : Nat) : String :=
  String.ofList (Nat.toDigits 16 n)

/-- At least `width` digits, with zeros in front. -/
def padded (width n : Nat) : String :=
  let digits := Nat.toDigits 16 n
  String.ofList (List.replicate (width - digits.length) '0' ++ digits)

def ofByte (byte : UInt8) : String :=
  String.ofList [digit (byte.toNat / 16), digit (byte.toNat % 16)]

def ofBytes (bytes : ByteArray) : String :=
  bytes.foldl
    (fun text byte => (text.push (digit (byte.toNat / 16))).push (digit (byte.toNat % 16))) ""

def value? (c : Char) : Option Nat :=
  if '0' ≤ c ∧ c ≤ '9' then some (c.toNat - 48)
  else if 'a' ≤ c ∧ c ≤ 'f' then some (c.toNat - 87)
  else if 'A' ≤ c ∧ c ≤ 'F' then some (c.toNat - 55)
  else none

/-- The bytes that pairs of digits spell, behind those already in `done`. -/
def bytesFrom? : List Char → (done : ByteArray) → Option ByteArray
  | [], done => some done
  | [_], _ => none
  | a :: b :: rest, done => do
    let high ← value? a
    let low ← value? b
    bytesFrom? rest (done.push (UInt8.ofNat (high * 16 + low)))

/-- The bytes that a text spells with two digits each. -/
def bytes? (text : String) : Option ByteArray :=
  bytesFrom? text.toList .empty

end NorFlash.Text.Hex
