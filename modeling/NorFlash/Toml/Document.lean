import NorFlash.Toml.Statement

/-!
A whole document: its statements, assembled into one table.
-/
namespace NorFlash.Toml

/-- The table that a document describes so far, and the path of the header in force. -/
structure Document where
  entries : Entries := []
  current : List String := []

namespace Document

def extend? (document : Document) : Statement → Option Document
  | .header path key => do
    return ⟨← document.entries.openTable? path key, path ++ [key]⟩
  | .repeatedHeader path key => do
    return ⟨← document.entries.appendTable? path key, path ++ [key]⟩
  | .assign a => do
    let entries ← document.entries.descend? false (Entries.assign? a.path a.key a.value)
      document.current .header
    return { document with entries }

def ofStatements? (statements : List Statement) : Option Document :=
  statements.foldlM extend? {}

/-- The entries of the table that a text describes. -/
def parse? (text : String) : Option Entries := do
  let (statements, _) ← Reader.statements.run text.toList
  return (← ofStatements? statements).entries

end Document

end NorFlash.Toml
