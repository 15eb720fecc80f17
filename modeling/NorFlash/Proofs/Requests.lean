import NorFlash.Proofs.Files
import NorFlash.Proofs.Stack
import NorFlash.Tool.Change
import NorFlash.Tool.Fetch

/-!
What requests have in common: the flash that they open over an image file, and that the files stay
as they are until everything else has succeeded.
-/
namespace NorFlash

/-- The array of a part that an image is loaded into. -/
def Part.padded (part : Part) (image : ByteArray) : ByteArray :=
  Bytes.overlay (Bytes.fill part.size 0xff) 0 image

namespace Tool

namespace Run

variable {α κ : Type} {x : Run α} {session after : Session}

theorem get_eq (session : Session) : (get : Run Session) session = .ok session session :=
  rfl

theorem readFile_ok {path : String} {bytes : ByteArray} :
    readFile path session = .ok bytes after ↔
      session.workspace.read path = .ok bytes ∧ session = after := by
  rw [readFile, bind_of_ok (get_eq session)]
  cases session.workspace.read path with
  | ok held =>
    constructor
    · rintro ⟨⟩
      exact ⟨rfl, rfl⟩
    · rintro ⟨⟨⟩, rfl⟩
      rfl
  | error cause =>
    constructor
    · rintro ⟨⟩
    · rintro ⟨⟨⟩, -⟩

section Write

variable {path : String} {bytes : ByteArray}

theorem writeFile_of_ok {written : Workspace}
    (h : session.workspace.write path bytes = .ok written) :
    writeFile path bytes session = .ok () { session with workspace := written } := by
  rw [writeFile, bind_of_ok (get_eq session), h]
  rfl

theorem writeFile_of_error {cause : FileError}
    (h : session.workspace.write path bytes = .error cause) :
    writeFile path bytes session = .error (.file cause) session := by
  rw [writeFile, bind_of_ok (get_eq session), h]
  rfl

/-- What was written is told of. -/
theorem exists_writeFile_print {written : Workspace}
    (h : session.workspace.write path bytes = .ok written) (line : String) :
    ∃ after, (writeFile path bytes >>= fun _ => print line) session = .ok () after ∧
      after.workspace = written :=
  ⟨_, bind_of_ok (writeFile_of_ok h) _, rfl⟩

end Write

/-- The program writes no file. -/
def KeepsFiles (x : Run α) : Prop :=
  ∀ session, (stateAfter (x session)).workspace = session.workspace

namespace KeepsFiles

theorem pure (value : α) : KeepsFiles (Pure.pure value : Run α) :=
  fun _ => rfl

theorem throw (cause : Failure) : KeepsFiles (MonadExcept.throw cause : Run α) :=
  fun _ => rfl

theorem bind (hx : KeepsFiles x) {f : α → Run κ} (hf : ∀ value, KeepsFiles (f value)) :
    KeepsFiles (x >>= f) := by
  intro session
  have hkept := hx session
  cases hresult : x session with
  | ok value between =>
    rw [hresult] at hkept
    rw [bind_of_ok hresult]
    exact (hf value between).trans hkept
  | error cause between =>
    rw [hresult] at hkept
    rw [bind_of_error hresult]
    exact hkept

end KeepsFiles

theorem keepsFiles_get : KeepsFiles (get : Run Session) :=
  fun _ => rfl

theorem keepsFiles_print (line : String) : KeepsFiles (print line) :=
  fun _ => rfl

theorem keepsFiles_readFile (path : String) : KeepsFiles (readFile path) := by
  apply keepsFiles_get.bind
  intro session
  split
  · exact .pure _
  · exact .throw _

/-- The program writes no file when it fails. -/
def FailsCleanly (x : Run α) : Prop :=
  ∀ session cause after, x session = .error cause after → after.workspace = session.workspace

namespace FailsCleanly

theorem of_keepsFiles (hx : KeepsFiles x) : FailsCleanly x := by
  intro session cause after h
  have hkept := hx session
  rwa [h] at hkept

/-- Up to its last part the program writes no file. -/
theorem bind (hx : KeepsFiles x) {f : α → Run κ} (hf : ∀ value, FailsCleanly (f value)) :
    FailsCleanly (x >>= f) := by
  intro session cause after h
  have hkept := hx session
  cases hresult : x session with
  | ok value between =>
    rw [hresult] at hkept
    rw [bind_of_ok hresult] at h
    exact (hf value between cause after h).trans hkept
  | error cause between =>
    rw [hresult] at hkept
    rw [bind_of_error hresult] at h
    cases h
    exact hkept

/-- A file is written last, and what was written is told of. -/
theorem writeFile_print (path : String) (bytes : ByteArray) (line : String) :
    FailsCleanly (writeFile path bytes >>= fun _ => print line) := by
  intro session cause after h
  cases hwrite : session.workspace.write path bytes with
  | ok written =>
    rw [bind_of_ok (writeFile_of_ok hwrite)] at h
    cases h
  | error refused =>
    rw [bind_of_error (writeFile_of_error hwrite)] at h
    cases h
    rfl

end FailsCleanly

/-- The program tells what it fails for. -/
def Tells (x : Run α) : Prop :=
  ∀ session cause after, x session = .error cause after → cause.message?.isSome = true

namespace Tells

theorem pure (value : α) : Tells (Pure.pure value : Run α) := by
  intro session cause after h
  cases h

theorem throw {cause : Failure} (hcause : cause.message?.isSome = true) :
    Tells (MonadExcept.throw cause : Run α) := by
  intro session thrown after h
  cases h
  exact hcause

theorem bind (hx : Tells x) {f : α → Run κ} (hf : ∀ value, Tells (f value)) :
    Tells (x >>= f) := by
  intro session cause after h
  cases hresult : x session with
  | ok value between =>
    rw [bind_of_ok hresult] at h
    exact hf value between cause after h
  | error failure between =>
    rw [bind_of_error hresult] at h
    cases h
    exact hx session cause after hresult

theorem ite {c : Prop} [Decidable c] {x' : Run α} (hthen : c → Tells x) (helse : ¬ c → Tells x') :
    Tells (if c then x else x') := by
  split
  case isTrue h => exact hthen h
  case isFalse h => exact helse h

end Tells

theorem tells_get : Tells (get : Run Session) := by
  intro session cause after h
  cases h

theorem tells_print (line : String) : Tells (print line) := by
  intro session cause after h
  cases h

theorem tells_printAll (entries : List α) (line : α → String) :
    Tells (do for entry in entries do print (line entry)) := by
  induction entries with
  | nil => exact .pure ()
  | cons entry entries ih =>
    rw [List.forIn_cons]
    intro session
    exact ih { session with printed := session.printed ++ line entry ++ "\n" }

theorem tells_readFile (path : String) : Tells (readFile path) := by
  apply tells_get.bind
  intro session
  split
  · exact .pure _
  · exact .throw rfl

theorem tells_writeFile (path : String) (bytes : ByteArray) : Tells (writeFile path bytes) := by
  apply tells_get.bind
  intro session
  split
  · intro before cause after h
    cases h
  · exact .throw rfl

end Run

namespace Flash

open Run

theorem keepsFiles_loadChip (target : Target) : KeepsFiles (loadChip target) := by
  unfold loadChip
  split
  · exact .throw _
  · apply keepsFiles_get.bind
    intro session
    split
    · apply (keepsFiles_readFile _).bind
      intro image
      split
      · exact .pure _
      · exact .throw _
    · exact .pure _

section Perform

variable {α : Type} {action : Driver.Action (Controller.Engine Emulation.Board) α}
  {flash flash' : Flash}

theorem keepsFiles_perform (action : Driver.Action (Controller.Engine Emulation.Board) α)
    (flash : Flash) : KeepsFiles (flash.perform action) := by
  unfold perform
  split
  · exact .pure _
  · exact .throw _

theorem perform_of_ok {value : α} (h : action flash = .ok value flash') (session : Session) :
    flash.perform action session = .ok (value, flash') session := by
  rw [perform, h]
  rfl

theorem perform_of_error {cause : Error} (h : action flash = .error cause flash')
    (session : Session) : flash.perform action session = .error (.stack cause) session := by
  rw [perform, h]
  rfl

end Perform

theorem keepsFiles_openTarget (target : Target) (settings : PlatformSettings) :
    KeepsFiles (openTarget target settings) := by
  apply (keepsFiles_loadChip target).bind
  intro chip
  split
  · exact .throw _
  · exact keepsFiles_perform _ _

theorem tells_loadChip (target : Target) : Tells (loadChip target) := by
  unfold loadChip
  split
  · exact .throw rfl
  · apply tells_get.bind
    intro session
    apply Tells.ite
    · intro _
      apply (tells_readFile _).bind
      intro image
      split
      · exact .pure _
      · exact .throw rfl
    · intro _
      exact .pure _

theorem tells_openTarget (target : Target) (settings : PlatformSettings) :
    Tells (openTarget target settings) := by
  apply (tells_loadChip target).bind
  intro chip
  split
  · exact .throw rfl
  · unfold perform
    split
    · exact .pure _
    · exact .throw rfl

variable {target : Target} {settings : PlatformSettings} {session after : Session}

theorem load_empty (part : Part) :
    (Emulation.Chip.erased part).load .empty = (.ok (), .erased part) := by
  rw [Emulation.Chip.load, ByteArray.size_empty, if_neg (Nat.not_lt_zero _)]
  simp only [Emulation.Chip.mapMemory, Emulation.Chip.erased, Bytes.overlay_empty]

/-- A fresh part is never busy, whatever image is loaded. -/
theorem busyPolls_load {part : Part} {image : ByteArray} {chip : Emulation.Chip}
    (h : (Emulation.Chip.erased part).load image = (.ok (), chip)) :
    { chip with busyPolls := 0 } = chip := by
  unfold Emulation.Chip.load at h
  dsimp only at h
  split at h
  · cases h
  · cases h
    rfl

/-- What the flash of a target is put together from. -/
def setup (part : Part) (image : ByteArray) (settings : PlatformSettings) : Setup :=
  ⟨part, image, settings.spi, settings.flash, 0⟩

/-- Only an image that fits and a line that exists make a stack. -/
theorem fits_of_assemble {setup : Setup} {fresh : Stack} (h : setup.assemble = .ok fresh) :
    setup.image.size ≤ setup.part.size ∧ setup.spi.chipSelect < Controller.lines := by
  have hsize : (Emulation.Chip.erased setup.part).memory.size = setup.part.size :=
    Bytes.size_fill ..
  unfold Setup.assemble Emulation.Chip.load at h
  dsimp only at h
  rw [hsize] at h
  by_cases hlarge : setup.part.size < setup.image.size
  · rw [if_pos hlarge] at h
    cases h
  · refine ⟨Nat.le_of_not_lt hlarge, UInt8.not_le.mp fun hout => ?_⟩
    rw [if_neg hlarge] at h
    dsimp only at h
    unfold Emulation.startEngine Controller.Engine.create at h
    rw [if_pos hout] at h
    cases h

section Open

variable {part : Part} (hpart : Part.findByName? target.chip = some part) {image : ByteArray}
  (himage : session.workspace.image target.image = .ok image)
include hpart himage

theorem loadChip_eq :
    loadChip target session =
      match (Emulation.Chip.erased part).load image with
      | (.ok (), chip) => .ok chip session
      | (.error cause, _) => .error (.setup cause) session := by
  have hnamed : Emulation.Chip.named target.chip = .ok (.erased part) := by
    rw [Emulation.Chip.named, hpart]
  unfold loadChip
  rw [hnamed]
  refine (bind_of_ok (Run.get_eq session) _).trans ?_
  unfold Workspace.image at himage
  by_cases hexists : session.workspace.exists? target.image
  · rw [if_pos hexists] at himage ⊢
    refine (bind_of_ok (Run.readFile_ok.mpr ⟨himage, rfl⟩) _).trans ?_
    cases (Emulation.Chip.erased part).load image with
    | mk outcome chip => cases outcome <;> rfl
  · rw [if_neg hexists] at himage ⊢
    cases himage
    rw [load_empty]
    rfl

/-- The flash of a target is its stack, scanned. -/
theorem openTarget_eq (settings : PlatformSettings) :
    openTarget target settings session =
      match (setup part image settings).assemble with
      | .error cause => .error (.setup cause) session
      | .ok fresh =>
        match Driver.scan fresh with
        | .error cause _ => .error (.stack cause) session
        | .ok g ready => .ok (g, ready) session := by
  have hload := loadChip_eq hpart himage
  unfold openTarget Setup.assemble setup
  dsimp only
  cases hresult : (Emulation.Chip.erased part).load image with
  | mk outcome chip =>
    rw [hresult] at hload
    cases outcome with
    | error cause => exact bind_of_error hload _
    | ok =>
      refine (bind_of_ok hload _).trans ?_
      dsimp only
      rw [busyPolls_load hresult]
      cases Emulation.startEngine (.create chip) settings.spi with
      | error cause => rfl
      | ok engine =>
        dsimp only
        unfold perform
        cases Driver.scan (.create engine settings.flash) <;> rfl

/-- A flash that was opened with settings under which all of the part can be reached is tuned to
it and holds the padded image. -/
theorem tuned_of_openTarget {g : Geometry} {flash : Flash}
    (h : openTarget target settings session = .ok (g, flash) after)
    (hsingle : settings.flash.wiring = .single)
    (haddressing : settings.flash.addressing ≠ .threeByte ∨ part.size ≤ Geometry.bankSize) :
    session = after ∧ (setup part image settings).Tuned g flash ∧
      flash.memory = part.padded image := by
  rw [openTarget_eq hpart himage] at h
  cases hassemble : (setup part image settings).assemble with
  | error cause =>
    rw [hassemble] at h
    cases h
  | ok fresh =>
    rw [hassemble] at h
    dsimp only at h
    cases hscan : Driver.scan fresh with
    | error cause failed =>
      rw [hscan] at h
      cases h
    | ok found ready =>
      rw [hscan] at h
      cases h
      obtain ⟨hfits, hline⟩ := fits_of_assemble hassemble
      have hsound : (setup part image settings).Sound :=
        ⟨List.mem_of_find?_eq_some hpart, hfits, hline, hsingle, haddressing⟩
      obtain ⟨htuned, hmemory, -⟩ := hsound.ready_of_scans ⟨fresh, hassemble, hscan⟩
      exact ⟨rfl, htuned, hmemory⟩

theorem openTarget_of_scans {g : Geometry} {ready : Stack}
    (hscans : (setup part image settings).Scans g ready) :
    openTarget target settings session = .ok (g, ready) session := by
  obtain ⟨fresh, hassemble, hscan⟩ := hscans
  rw [openTarget_eq hpart himage, hassemble]
  dsimp only
  rw [hscan]

end Open

theorem attempts_pos {timeout : UInt32} (h : timeout ≠ 0) : 0 < Poll.attempts timeout := by
  have hpos : 0 < timeout.toNat := by
    apply Nat.pos_of_ne_zero
    intro hzero
    exact h (UInt32.toNat_inj.mp hzero)
  change 0 < min (timeout.toNat * 10) 0xffffffff
  omega

/-- The emulated part is never busy, so any wait is long enough that makes a check at all. -/
theorem waits_setup (part : Part) (image : ByteArray)
    (htimeout : settings.flash.programTimeout ≠ 0) :
    (setup part image settings).busyPolls <
      Poll.attempts (setup part image settings).flash.programTimeout :=
  attempts_pos htimeout

theorem banksSettle_setup (part : Part) (image : ByteArray)
    (htimeout : settings.flash.programTimeout ≠ 0) :
    (setup part image settings).flash.BanksSettle (setup part image settings).busyPolls :=
  Nat.lt_of_le_of_lt (Nat.sub_le ..) (waits_setup part image htimeout)

end Flash

/-- Saving changes one file. -/
theorem save_of_canHold {target : Target} {session : Session}
    (hfile : session.workspace.CanHold target.image) (flash : Flash) :
    ∃ after, flash.save target session = .ok () after ∧
      session.workspace.write target.image flash.memory = .ok after.workspace ∧
      after.workspace.read target.image = .ok flash.memory := by
  obtain ⟨written, hwrite, hread, -⟩ := hfile.write flash.memory
  obtain ⟨after, hdone, rfl⟩ := Run.exists_writeFile_print hwrite
    ("Saved " ++ toString flash.memory.size ++ " bytes to " ++ Text.quoted target.image)
  exact ⟨after, hdone, hwrite, hread⟩

end Tool

end NorFlash
