import NorFlash.Toml.Number
import NorFlash.Toml.Text

/-!
The lines of a document as statements: a header, a repeated header, or a key with its value.
-/
namespace NorFlash.Toml

/-- Values nest less deep than this, and dotted keys have fewer parts. -/
def depthLimit : Nat := 80

def isBare (c : Char) : Bool :=
  c.isAlphanum || c = '-' || c = '_'

/-- Characters of numbers, dates and words. -/
def isTokenChar (c : Char) : Bool :=
  isBare c || c = '+' || c = '.' || c = ':'

/-- A key with its value, found at the end of a path. -/
structure Assignment where
  path : List String
  key : String
  value : Value

inductive Statement where
  | header (path : List String) (key : String)
  | repeatedHeader (path : List String) (key : String)
  | assign (assignment : Assignment)

namespace Reader

def keyPart : Reader String := do
  match ← peek? with
  | some '"' | some '\'' => Text.line
  | _ =>
    let name ← takeWhile isBare
    if name.isEmpty then failure else return .ofList name

/-- The parts of a dotted key: the path, and the key at its end. -/
def key : Reader (List String × String) := do
  let parts ← iterate (fun (parts : List String) => do
    blanks
    let part ← keyPart
    blanks
    if ← accept "." then return .yield (parts ++ [part]) else return .done (parts ++ [part])) []
  match parts.getLast? with
  | some last => if parts.length < depthLimit then return (parts.dropLast, last) else failure
  | none => failure

/-- A value without parts. A blank may separate a date from the time that follows. -/
def scalar : Reader Value := do
  match ← peek? with
  | some '"' | some '\'' => return .text (← Text.quoted)
  | _ =>
    let token ← takeWhile isTokenChar
    match token with
    | ['t', 'r', 'u', 'e'] => return .truth true
    | ['f', 'a', 'l', 's', 'e'] => return .truth false
    | _ =>
      let input ← get
      if Number.isDate token && input.head? = some ' ' then
        let time := (input.drop 1).takeWhile isTokenChar
        if Number.isZonedTime time then
          set (input.drop (1 + time.length))
          return .dateTime (.ofList (token ++ ' ' :: time))
      Number.value? token

/-- The items of an array behind its bracket; a comma may stand behind the last. -/
def arrayRest (item : Reader Value) : Reader (List Value) :=
  iterate (fun items => do
    space
    if ← accept "]" then
      return .done items
    let v ← item
    space
    if ← accept "," then
      return .yield (items ++ [v])
    exactly "]"
    return .done (items ++ [v])) []

def assignment (value : Reader Value) : Reader Assignment := do
  let (path, key) ← key
  exactly "="
  blanks
  return ⟨path, key, ← value⟩

/-- The entries of a table in braces behind the brace; no comma stands behind the last. -/
def tableRest (value : Reader Value) : Reader Entries := do
  blanks
  if ← accept "\x7d" then
    return []
  iterate (fun entries => do
    let a ← assignment value
    let entries ← entries.assign? a.path a.key a.value .inline
    blanks
    if ← accept "," then
      return .yield entries
    exactly "\x7d"
    return .done entries) []

def value : (depth : Nat) → Reader Value
  | 0 => scalar
  | depth + 1 => do
    if ← accept "[" then
      return .array (← arrayRest (value depth))
    else if ← accept "\x7b" then
      return .table .inline (← tableRest (value depth))
    else
      scalar

def statement : Reader Statement := do
  if ← accept "[[" then
    let (path, key) ← key
    exactly "]]"
    return .repeatedHeader path key
  else if ← accept "[" then
    let (path, key) ← key
    exactly "]"
    return .header path key
  else
    return .assign (← assignment (value (depthLimit - 1)))

/-- All statements of a document, each on a line of its own. -/
def statements : Reader (List Statement) := do
  let _ ← accept "\ufeff"
  iterate (fun done => do
    blanks
    match ← peek? with
    | none => return .done done
    | some '#' => comment; lineEnd; return .yield done
    | some '\n' | some '\r' => newline; return .yield done
    | _ =>
      let s ← statement
      restOfLine
      return .yield (done ++ [s])) []

end Reader

end NorFlash.Toml
