import NorFlash.Text.Hex
import NorFlash.Toml.Value

/-!
Numbers, dates and times, each told from the run of characters that spells it.
-/
namespace NorFlash.Toml.Number

/-- The digits of a group in which single underscores may stand between digits. -/
def digits? (isDigit : Char → Bool) : List Char → Option (List Char)
  | [] => none
  | [c] => if isDigit c then some [c] else none
  | c :: '_' :: rest => if isDigit c then (c :: ·) <$> digits? isDigit rest else none
  | c :: rest => if isDigit c then (c :: ·) <$> digits? isDigit rest else none

def ofDigits (base : Nat) (digits : List Char) : Nat :=
  digits.foldl (fun n c => n * base + (NorFlash.Text.Hex.value? c).getD 0) 0

/-- A decimal numeral: no zero stands in front of other digits. -/
def decimal? (text : List Char) : Option (List Char) := do
  let digits ← digits? Char.isDigit text
  if digits.head? = some '0' ∧ text.length ≠ 1 then none else some digits

/-- The sign, which may be left out, and what follows it. -/
def signed : List Char → Bool × List Char
  | '-' :: rest => (true, rest)
  | '+' :: rest => (false, rest)
  | text => (false, text)

/-- Numbers have 64 bits with a sign. -/
def inRange? (n : Int) : Option Int :=
  if -0x8000000000000000 ≤ n ∧ n < 0x8000000000000000 then some n else none

def isHexDigit (c : Char) : Bool :=
  (NorFlash.Text.Hex.value? c).isSome

def integer? : List Char → Option Int
  | '0' :: 'x' :: rest => do inRange? (ofDigits 16 (← digits? isHexDigit rest))
  | '0' :: 'o' :: rest => do inRange? (ofDigits 8 (← digits? (fun c => '0' ≤ c && c ≤ '7') rest))
  | '0' :: 'b' :: rest => do inRange? (ofDigits 2 (← digits? (fun c => c = '0' || c = '1') rest))
  | text => do
    let (negative, rest) := signed text
    let n : Int := ofDigits 10 (← decimal? rest)
    inRange? (if negative then -n else n)

/-- From here on a number is nearer to infinity than to the largest binary float of 64 bits. -/
def floatLimit : Nat := 1 <<< 1024 - 1 <<< 970

/-- The decimal `m · 10 ^ e` is below the float limit; only close to it are powers computed. -/
def isFinite (m : Nat) (e : Int) : Bool :=
  let magnitude : Int := (Nat.toDigits 10 m).length + e
  if m = 0 ∨ magnitude < 300 then true
  else if magnitude > 320 then false
  else if 0 ≤ e then m * Nat.pow 10 e.toNat < floatLimit
  else m < floatLimit * Nat.pow 10 (-e).toNat

def isExponentMark (c : Char) : Bool :=
  c = 'e' || c = 'E'

/-- The exponent behind its mark, or zero if there is none. -/
def exponent? : List Char → Option Int
  | [] => some 0
  | _ :: rest => do
    let (negative, rest) := signed rest
    let n : Int := ofDigits 10 (← digits? Char.isDigit rest)
    return if negative then -n else n

/-- The digits behind the decimal point, or none if there is no point. -/
def fraction? : List Char → Option (List Char)
  | [] => some []
  | _ :: rest => digits? Char.isDigit rest

/-- A float has a fraction, an exponent or both; only positive ones can be too large. -/
def isFloat (text : List Char) : Bool :=
  let (negative, rest) := signed text
  let mantissa := rest.takeWhile (!isExponentMark ·)
  let whole := mantissa.takeWhile (· ≠ '.')
  let parts : Option (List Char × List Char × Int) := do
    return (← decimal? whole, ← fraction? (mantissa.drop whole.length),
      ← exponent? (rest.drop mantissa.length))
  match parts with
  | some (digits, fraction, e) =>
    whole.length < rest.length &&
      (negative || isFinite (ofDigits 10 (digits ++ fraction)) (e - fraction.length))
  | none => rest = ['i', 'n', 'f'] || rest = ['n', 'a', 'n']

/-- The number that exactly two digits spell, up to a limit. -/
def twoDigits? (limit : Nat) (a b : Char) : Option Nat :=
  let n := ofDigits 10 [a, b]
  if a.isDigit ∧ b.isDigit ∧ n ≤ limit then some n else none

def daysIn (year month : Nat) : Nat :=
  if month = 2 then
    if year % 4 = 0 ∧ (year % 100 ≠ 0 ∨ year % 400 = 0) then 29 else 28
  else if month = 4 ∨ month = 6 ∨ month = 9 ∨ month = 11 then 30 else 31

def isDate : List Char → Bool
  | [y₁, y₂, y₃, y₄, '-', m₁, m₂, '-', d₁, d₂] =>
    [y₁, y₂, y₃, y₄].all Char.isDigit &&
      match twoDigits? 12 m₁ m₂, twoDigits? 31 d₁ d₂ with
      | some month, some day =>
        0 < month && 0 < day && day ≤ daysIn (ofDigits 10 [y₁, y₂, y₃, y₄]) month
      | _, _ => false
  | _ => false

/-- A time of day, with a leap second at most and a fraction of any length. -/
def isTime : List Char → Bool
  | h₁ :: h₂ :: ':' :: m₁ :: m₂ :: ':' :: s₁ :: s₂ :: fraction =>
    (twoDigits? 23 h₁ h₂).isSome && (twoDigits? 59 m₁ m₂).isSome && (twoDigits? 60 s₁ s₂).isSome &&
      match fraction with
      | [] => true
      | point :: digits => point = '.' && digits ≠ [] && digits.all Char.isDigit
  | _ => false

def isOffset : List Char → Bool
  | [] => true
  | [c] => c = 'Z' || c = 'z'
  | [sign, h₁, h₂, ':', m₁, m₂] =>
    (sign = '+' || sign = '-') && (twoDigits? 23 h₁ h₂).isSome && (twoDigits? 59 m₁ m₂).isSome
  | _ => false

/-- A time behind a date, where a zone may follow. -/
def isZonedTime (text : List Char) : Bool :=
  let isMark (c : Char) : Bool := c = 'Z' || c = 'z' || c = '+' || c = '-'
  isTime (text.takeWhile (!isMark ·)) && isOffset (text.dropWhile (!isMark ·))

def isDateTime (text : List Char) : Bool :=
  isDate text || isTime text ||
    (isDate (text.take 10) && ((text[10]? = some 'T') || (text[10]? = some 't')) &&
      isZonedTime (text.drop 11))

def value? (text : List Char) : Option Value :=
  match integer? text with
  | some n => some (.integer n)
  | none =>
    if isFloat text then some (.float (.ofList text))
    else if isDateTime text then some (.dateTime (.ofList text))
    else none

end NorFlash.Toml.Number
