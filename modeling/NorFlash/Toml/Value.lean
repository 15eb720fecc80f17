/-!
TOML values and the rules by which keys extend tables: a table may be opened once by its own
header, and dotted keys extend only tables that dotted keys created.
-/
namespace NorFlash.Toml

/-- How a table came about, which decides what may still be added to it. -/
inductive Origin where
  /-- Written in braces; closed. -/
  | inline
  /-- Opened by its own header. -/
  | header
  /-- Passed by a longer header, and not yet opened by its own. -/
  | implied
  /-- Created by a dotted key. -/
  | dotted
  deriving DecidableEq, Repr

inductive Value where
  | text (s : String)
  | integer (n : Int)
  | float (digits : String)
  | truth (b : Bool)
  | dateTime (digits : String)
  | array (items : List Value)
  | table (origin : Origin) (entries : List (String × Value))
  /-- The tables of one repeated header, in order. -/
  | tables (items : List (List (String × Value)))
  deriving Repr, Inhabited

abbrev Entries := List (String × Value)

namespace Entries

def get? (entries : Entries) (key : String) : Option Value :=
  (entries.find? (·.1 = key)).map (·.2)

/-- Replaces the value of a key, or adds one at the end, if the change allows it. -/
def change? (key : String) (f : Option Value → Option Value) : Entries → Option Entries
  | [] => do return [(key, ← f none)]
  | (k, v) :: rest => do
    if k = key then
      return (k, ← f (some v)) :: rest
    else
      return (k, v) :: (← change? key f rest)

/--
Follows a path from a table of the given origin, creating the tables that are missing, and changes
the table it ends in. A dotted path does not enter a table that has a header of its own.
-/
def descend? (isDotted : Bool) (change : Origin → Entries → Option Entries) :
    (path : List String) → Origin → Entries → Option Entries
  | [], origin, entries => change origin entries
  | key :: path, _, entries =>
    entries.change? key fun
      | none => do
        let created : Origin := if isDotted then .dotted else .implied
        return .table created (← descend? isDotted change path created [])
      | some (.table origin inner) => do
        if origin = .inline ∨ (isDotted ∧ origin = .header) then
          none
        return .table origin (← descend? isDotted change path origin inner)
      | some (.tables items) => do
        return .tables (items.dropLast ++
          [← descend? isDotted change path .header (← items.getLast?)])
      | some _ => none

/-- Sets a new key below a dotted path. -/
def assign? (path : List String) (key : String) (value : Value) (origin : Origin)
    (entries : Entries) : Option Entries :=
  descend? true (fun reached entries => do
    if reached = .dotted ↔ path = [] then
      none
    entries.change? key fun
      | none => some value
      | some _ => none) path origin entries

/-- Opens the table of a header. -/
def openTable? (path : List String) (key : String) (entries : Entries) : Option Entries :=
  descend? false (fun _ entries =>
    entries.change? key fun
      | none => some (.table .header [])
      | some (.table .implied inner) => some (.table .header inner)
      | some _ => none) path .header entries

/-- Adds a table to those of a repeated header. -/
def appendTable? (path : List String) (key : String) (entries : Entries) : Option Entries :=
  descend? false (fun _ entries =>
    entries.change? key fun
      | none => some (.tables [[]])
      | some (.tables items) => some (.tables (items ++ [[]]))
      | some _ => none) path .header entries

end Entries

end NorFlash.Toml
