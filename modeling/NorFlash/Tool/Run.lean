import NorFlash.Settings.Description
import NorFlash.Tool.Change
import NorFlash.Tool.Fetch
import NorFlash.Tool.Report

/-!
The whole tool as a function: from the arguments and the workspace to the outcome, the text
printed and the workspace left behind.
-/
namespace NorFlash.Tool

def Request.run (settings : PlatformSettings) : Request → Run Unit
  | .probe target => Tool.probe target settings
  | .read target offset length output =>
    Tool.read target settings offset.toNat length.toNat output
  | .erase target offset length => Tool.erase target settings offset.toNat length.toNat
  | .write target offset input => Tool.write target settings offset.toNat input
  | .fip target => listPackage target settings
  | .listChips vendor => Tool.listChips vendor

/-- How an invocation ends. -/
inductive Outcome where
  | done
  | usage (cause : UsageError)
  | badSettings
  | failed (cause : Failure)
  deriving DecidableEq, Repr

/-- The settings in the named file, or the defaults when none is named. -/
def loadSettings? (workspace : Workspace) : Option String → Option PlatformSettings
  | none => some {}
  | some path => do
    let bytes ← (workspace.read path).toOption
    PlatformSettings.parse? (← String.fromUTF8? bytes)

/-- Reads the arguments and the settings, and carries the request out. -/
def run (arguments : List String) (workspace : Workspace) : Outcome × Session :=
  match Invocation.parse arguments with
  | .error cause => (.usage cause, { workspace })
  | .ok invocation =>
    match loadSettings? workspace invocation.config with
    | none => (.badSettings, { workspace })
    | some settings =>
      match invocation.request.run settings { workspace } with
      | .ok _ session => (.done, session)
      | .error cause session => (.failed cause, session)

end NorFlash.Tool
