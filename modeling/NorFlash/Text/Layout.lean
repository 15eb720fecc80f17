import NorFlash.Text.Hex
import NorFlash.Text.Hidden

/-!
Layout of printed text: columns, sizes in binary units, numbers with a base prefix, and paths in
quotes.
-/
namespace NorFlash.Text

/-- The text at the left of a column of at least `width` characters. -/
def left (width : Nat) (text : String) : String :=
  text ++ String.ofList (List.replicate (width - text.length) ' ')

/-- The text at the right of a column of at least `width` characters. -/
def right (width : Nat) (text : String) : String :=
  String.ofList (List.replicate (width - text.length) ' ') ++ text

/-- A line of one repeated character. -/
def rule (width : Nat) : String :=
  String.ofList (List.replicate width '-')

/-- A size in the largest unit that is not larger, rounded down. -/
def size (bytes : Nat) : String :=
  if 0x100000 ≤ bytes then toString (bytes / 0x100000) ++ " MiB"
  else if 0x400 ≤ bytes then toString (bytes / 0x400) ++ " KiB"
  else toString bytes ++ " B"

namespace Hex

def prefixed (n : Nat) : String :=
  "0x" ++ ofNat n

def prefixedByte (byte : UInt8) : String :=
  "0x" ++ ofByte byte

/-- An address with eight upper case digits. -/
def address (n : Nat) : String :=
  "0x" ++ (padded 8 n).toUpper

end Hex

/-- A character between quotes. -/
def escaped (c : Char) : String :=
  if c = '"' then "\\\""
  else if c = '\\' then "\\\\"
  else if c = '\n' then "\\n"
  else if c = '\r' then "\\r"
  else if c = '\t' then "\\t"
  else if c = '\x00' then "\\0"
  else if isHidden c then "\\u\x7b" ++ Hex.ofNat c.toNat ++ "\x7d"
  else c.toString

def quoted (path : String) : String :=
  "\"" ++ String.join (path.toList.map escaped) ++ "\""

/-- Whether a text contains another, without regard to case. The Kelvin sign is the only letter
beyond ASCII whose lower case is an ASCII letter. -/
def containsIgnoringCase (text part : String) : Bool :=
  let lower (s : String) : List Char :=
    s.toList.map fun c => if c = '\u212a' then 'k' else c.toLower
  let all := lower text
  (List.range (all.length + 1)).any fun start => (lower part).isPrefixOf (all.drop start)

end NorFlash.Text
