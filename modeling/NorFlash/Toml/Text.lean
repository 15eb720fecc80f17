import NorFlash.Text.Hex
import NorFlash.Toml.Reader

/-!
Quoted texts: basic ones with escapes and literal ones without, on one line or on several.
-/
namespace NorFlash.Toml.Text

/-- The character that a given number of hexadecimal digits name. -/
def codePoint (digits : Nat) : Reader Char := do
  let input ← get
  let values ← (input.take digits).mapM fun c => (NorFlash.Text.Hex.value? c : Option Nat)
  if values.length ≠ digits then
    failure
  set (input.drop digits)
  let n := values.foldl (16 * · + ·) 0
  if n.isValidChar then return .ofNat n else failure

/-- What follows a backslash. -/
def escape : Reader Char := do
  match ← Reader.satisfying fun _ => true with
  | 'b' => return '\x08'
  | 't' => return '\t'
  | 'n' => return '\n'
  | 'f' => return '\x0c'
  | 'r' => return '\r'
  | '"' => return '"'
  | '\\' => return '\\'
  | 'u' => codePoint 4
  | 'U' => codePoint 8
  | _ => failure

/-- The rest of a basic text behind its opening quote. -/
def basicRest : Reader String :=
  Reader.iterate (fun done => do
    match ← Reader.satisfying isPlain with
    | '"' => return .done done
    | '\\' => return .yield (done.push (← escape))
    | c => return .yield (done.push c)) ""

def literalRest : Reader String :=
  Reader.iterate (fun done => do
    match ← Reader.satisfying isPlain with
    | '\'' => return .done done
    | c => return .yield (done.push c)) ""

/-- A backslash at the end of a line skips all blanks and line ends that follow. -/
def lineJoin : Reader Unit := do
  Reader.blanks
  Reader.newline
  let _ ← Reader.takeWhile fun c => isBlank c || c = '\n'
  Reader.iterate (fun _ => do
    if ← Reader.accept "\r\n" then
      let _ ← Reader.takeWhile fun c => isBlank c || c = '\n'
      return .yield ()
    else
      return .done ()) ()

/--
The rest of a text on several lines. Up to two quotes directly before the closing three belong to
the text.
-/
def linesRest (quote : Char) (escapes : Bool) : Reader String := do
  let _ ← Reader.acceptNewline
  let closing := String.ofList [quote, quote, quote]
  Reader.iterate (fun done => do
    if ← Reader.accept closing then
      let extra ← Reader.takeWhile (· = quote)
      if extra.length ≤ 2 then
        return .done (done ++ String.ofList extra)
      else
        failure
    else if ← Reader.acceptNewline then
      return .yield (done.push '\n')
    else
      match ← Reader.satisfying isPlain with
      | '\\' =>
        if escapes then
          match ← Reader.peek? with
          | some ' ' | some '\t' | some '\n' | some '\r' => lineJoin; return .yield done
          | _ => return .yield (done.push (← escape))
        else
          return .yield (done.push '\\')
      | c => return .yield (done.push c)) ""

/-- A text on one line, which may also serve as a key. -/
def line : Reader String := do
  if ← Reader.accept "\"" then basicRest
  else
    Reader.exactly "'"
    literalRest

def quoted : Reader String := do
  if ← Reader.accept "\"\"\"" then linesRest '"' true
  else if ← Reader.accept "'''" then linesRest '\'' false
  else line

end NorFlash.Toml.Text
