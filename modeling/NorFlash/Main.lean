import NorFlash.Tool.Run

/-!
The command line tool on real files.
-/
namespace NorFlash.Tool

/-- The paths that a request names. -/
def Request.paths : Request → List String
  | .probe target | .erase target _ _ | .fip target => [target.image]
  | .read target _ _ output => [target.image, output]
  | .write target _ input => [target.image, input]
  | .listChips _ => []

def Invocation.paths (invocation : Invocation) : List String :=
  invocation.config.toList ++ invocation.request.paths

/-- The place of a path whose names all lead on. -/
def Path.place (current : Place) (path : Path) : Place :=
  path.names.foldl (fun place name =>
    if name = "." then place else if name = ".." then place.dropLast else place ++ [name])
    (path.start current)

/-- The named files that can be read. Every directory on the way to one counts as existing. -/
def loadWorkspace (paths : List String) : IO Workspace := do
  let current := (Path.ofText (← IO.currentDir).toString).names
  let mut workspace : Workspace := { current }
  for path in paths do
    let place := (Path.ofText path).place current
    let above := (List.range place.length).map place.take
    workspace := { workspace with directories := workspace.directories ++ above }
    try
      let bytes ← IO.FS.readBinFile path
      workspace := { workspace with files := Workspace.put place bytes workspace.files }
    catch _ => pure ()
  return workspace

/-- Writes the named files that a request has changed. -/
def saveWorkspace (paths : List String) (before after : Workspace) : IO Unit := do
  for path in paths do
    let place := (Path.ofText path).place before.current
    if let some bytes := after.files.lookup place then
      if before.files.lookup place != some bytes then
        IO.FS.writeBinFile path bytes

def usage : String :=
  "usage: norflash [-v] [--config FILE] REQUEST [PARAMETERS]\n" ++
  "  probe       -i IMAGE [-c CHIP]\n" ++
  "  read        -i IMAGE [-c CHIP] --offset N --length N -o FILE\n" ++
  "  erase       -i IMAGE [-c CHIP] --offset N --length N\n" ++
  "  write       -i IMAGE [-c CHIP] --offset N --input FILE\n" ++
  "  fip         -i IMAGE [-c CHIP]\n" ++
  "  list-chips  [--vendor TEXT]"

/-- Tells how an invocation ended, and gives its exit code. -/
def report : Outcome → IO UInt32
  | .done => return 0
  | .usage .help => do IO.println usage; return 0
  | .usage .version => do IO.println "norflash 0.1.0"; return 0
  | .usage _ => do IO.eprintln usage; return 2
  | .badSettings => do IO.eprintln "Failed to load platform configuration"; return 1
  | .failed cause => do
    if let some text := cause.message? then
      IO.eprintln ("Error: " ++ text)
    return 1

end NorFlash.Tool

open NorFlash.Tool in
def main (arguments : List String) : IO UInt32 := do
  let paths := match Invocation.parse arguments with
    | .ok invocation => invocation.paths
    | .error _ => []
  let before ← loadWorkspace paths
  let (outcome, session) := run arguments before
  IO.print session.printed
  saveWorkspace paths before session.workspace
  report outcome
