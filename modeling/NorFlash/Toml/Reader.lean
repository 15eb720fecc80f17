/-!
Reading text from the front: a reader takes what it recognises off a list of characters, or fails.
-/
namespace NorFlash.Toml

abbrev Reader := StateT (List Char) Option

namespace Reader

def peek? : Reader (Option Char) := do
  return (← get).head?

/-- Takes the given text off the front. -/
def exactly (text : String) : Reader Unit := do
  let expected := text.toList
  let input ← get
  if expected.isPrefixOf input then
    set (input.drop expected.length)
  else
    failure

/-- Takes the given text off the front if it is there. -/
def accept (text : String) : Reader Bool := do
  let expected := text.toList
  let input ← get
  if expected.isPrefixOf input then
    set (input.drop expected.length)
    return true
  else
    return false

def takeWhile (p : Char → Bool) : Reader (List Char) := do
  let input ← get
  set (input.dropWhile p)
  return input.takeWhile p

/-- The next character, which has to satisfy a condition. -/
def satisfying (p : Char → Bool) : Reader Char := do
  match ← get with
  | c :: rest => if p c then set rest; return c else failure
  | [] => failure

def loop {α : Type} (step : α → Reader (ForInStep α)) : (fuel : Nat) → α → Reader α
  | 0, _ => failure
  | fuel + 1, state => do
    match ← step state with
    | .done state => return state
    | .yield state => loop step fuel state

/-- Repeats a step that takes at least one character whenever it goes on. -/
def iterate {α : Type} (step : α → Reader (ForInStep α)) (state : α) : Reader α := do
  loop step ((← get).length + 1) state

end Reader

def isBlank (c : Char) : Bool :=
  c = ' ' || c = '\t'

/-- Characters that may stand in comments and, escapes and quotes apart, in texts. -/
def isPlain (c : Char) : Bool :=
  c = '\t' || (' ' ≤ c && c ≠ '\x7f')

namespace Reader

def blanks : Reader Unit := do
  let _ ← takeWhile isBlank

/-- A line feed, with or without a carriage return before it. -/
def newline : Reader Unit :=
  exactly "\n" <|> exactly "\r\n"

/-- Whether a line feed was there to be taken. -/
def acceptNewline : Reader Bool := do
  if ← accept "\n" then return true else accept "\r\n"

def comment : Reader Unit := do
  if ← accept "#" then
    let _ ← takeWhile isPlain

/-- The end of a line or of the text. -/
def lineEnd : Reader Unit := do
  if (← peek?).isSome then
    newline

/-- Blanks and a comment up to the end of the line. -/
def restOfLine : Reader Unit := do
  blanks
  comment
  lineEnd

/-- Blanks, comments and line ends between the items of an array. -/
def space : Reader Unit :=
  iterate (fun _ => do
    blanks
    match ← peek? with
    | some '#' => comment; newline; return .yield ()
    | some '\n' | some '\r' => newline; return .yield ()
    | _ => return .done ()) ()

end Reader

end NorFlash.Toml
