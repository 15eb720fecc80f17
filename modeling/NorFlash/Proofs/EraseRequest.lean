import NorFlash.Proofs.WriteRequest

/-!
Erasing a region of the image of a part: when the request succeeds, what the image is then, and
that a request that fails writes no file, whatever it has erased of the emulated part by then.
-/
namespace NorFlash

theorem Piece.tile_mul_succ {unit : Nat} (hunit : 0 < unit) (position n : Nat) :
    Piece.tile (fun _ => unit) position (unit * (n + 1)) =
      ⟨position, unit⟩ :: Piece.tile (fun _ => unit) (position + unit) (unit * n) := by
  have hfirst : min (unit * (n + 1)) (max 1 unit) = unit := by
    rw [Nat.max_eq_right hunit, Nat.mul_succ, Nat.min_eq_right (Nat.le_add_left ..)]
  have hrest : unit * (n + 1) - unit = unit * n := by
    rw [Nat.mul_succ, Nat.add_sub_cancel]
  rw [Piece.tile_of_ne_zero _ _ (Nat.ne_of_gt (Nat.mul_pos hunit (Nat.succ_pos n))), hfirst, hrest]

/-- A range rewritten with one byte is that range of a filled array. -/
theorem Rewrites.eq_overlay_fill {byte : UInt8} {offset length : Nat} {before after : ByteArray}
    (h : Rewrites (fun _ _ => byte) offset (offset + length) before after)
    (hin : offset + length ≤ before.size) :
    after = Bytes.overlay before offset (Bytes.fill length byte) := by
  have hfits : offset + (Bytes.fill length byte).size ≤ before.size := by rwa [Bytes.size_fill]
  apply Bytes.ext_byteAt
  · rw [h.size, Bytes.size_overlay hfits]
  · intro i _
    rw [Bytes.byteAt_overlay hfits, Bytes.size_fill]
    by_cases hi : offset ≤ i ∧ i < offset + length
    · rw [if_pos hi, h.inside hi.1 hi.2, Bytes.byteAt_fill, if_pos (by omega)]
    · rw [if_neg hi, h.outside (by omega)]

namespace Tool

section Units

variable {setup : Setup} {g : Geometry} {flash : Flash} (h : setup.Tuned g flash)
  (hsettle : setup.flash.BanksSettle setup.busyPolls)
  (hwaits : setup.busyPolls < Poll.attempts setup.flash.eraseTimeout)
  {position : Nat} (hposition : position % g.eraseSize = 0)
include h hsettle hwaits hposition

/-- Units that lie inside the array are all erased. -/
theorem eraseUnits_inside {count : Nat} (hin : position + g.eraseSize * count ≤ g.size) :
    ∃ after : Flash,
      eraseUnits g.eraseSize (Piece.tile (fun _ => g.eraseSize) position (g.eraseSize * count))
        flash = .ok () after ∧ setup.Tuned g after ∧
      Rewrites (fun _ _ => 0xff) position (position + g.eraseSize * count) flash.memory
        after.memory := by
  induction count generalizing position flash with
  | zero =>
    rw [Nat.mul_zero, Piece.tile_zero]
    exact ⟨flash, rfl, h, .refl _ _ _⟩
  | succ count ih =>
    rw [Piece.tile_mul_succ h.plain.eraseSize_pos]
    have hall : g.eraseSize * (count + 1) = g.eraseSize + g.eraseSize * count := by
      rw [Nat.mul_succ, Nat.add_comm]
    rw [hall, ← Nat.add_assoc] at hin ⊢
    obtain ⟨between, hfirst, hbetween, hunit⟩ := h.erase_inside hsettle hwaits hposition
      (Nat.mod_self _) (Nat.le_trans (Nat.le_add_right ..) hin)
    obtain ⟨after, hrest, hafter, hrewrites⟩ :=
      ih hbetween ((Nat.add_mod_right ..).trans hposition) hin
    exact ⟨after, (bind_of_ok hfirst _).trans hrest, hafter,
      hunit.trans hrewrites (Nat.le_add_right ..) (Nat.le_add_right ..)⟩

/-- Units that leave the array are not all erased, though those before its end are. -/
theorem eraseUnits_outside {count : Nat} (hpos : 0 < count)
    (hout : g.size < position + g.eraseSize * count) :
    ∃ cause after,
      eraseUnits g.eraseSize (Piece.tile (fun _ => g.eraseSize) position (g.eraseSize * count))
        flash = .error cause after := by
  induction count generalizing position flash with
  | zero => exact absurd hpos (Nat.lt_irrefl 0)
  | succ count ih =>
    rw [Piece.tile_mul_succ h.plain.eraseSize_pos]
    have hall : g.eraseSize * (count + 1) = g.eraseSize + g.eraseSize * count := by
      rw [Nat.mul_succ, Nat.add_comm]
    rw [hall, ← Nat.add_assoc] at hout
    by_cases hin : position + g.eraseSize ≤ g.size
    · have hmore : 0 < count := by
        apply Nat.pos_of_ne_zero
        rintro rfl
        omega
      obtain ⟨between, hfirst, hbetween, -⟩ :=
        h.erase_inside hsettle hwaits hposition (Nat.mod_self _) hin
      obtain ⟨cause, after, hrest⟩ :=
        ih hbetween ((Nat.add_mod_right ..).trans hposition) hmore hout
      exact ⟨cause, after, (bind_of_ok hfirst _).trans hrest⟩
    · obtain ⟨after, hrefused⟩ :=
        h.erase_outside hposition (Nat.mod_self _) (Nat.lt_of_not_le hin)
      exact ⟨_, after, bind_of_error hrefused _⟩

end Units

section Request

variable {target : Target} {settings : PlatformSettings} {offset length : Nat} {session : Session}
  {image : ByteArray} {part : Part} {g : Geometry} {flash : Flash}

/-- Erases the units of a region in the flash and saves the image. -/
def eraseAndSave (target : Target) (unit offset length : Nat) (flash : Flash) : Run Unit := do
  let (_, flash) ← flash.perform (eraseUnits unit (Piece.tile (fun _ => unit) offset length))
  Run.print ("Erased " ++ toString length ++ " bytes starting at " ++ Text.Hex.address offset)
  flash.save target

section Open

variable (hopen : Flash.openTarget target settings session = .ok (g, flash) session)
include hopen

theorem erase_of_aligned (haligned : offset % g.eraseSize = 0 ∧ length % g.eraseSize = 0) :
    erase target settings offset length session =
      eraseAndSave target g.eraseSize offset length flash session := by
  refine (bind_of_ok hopen _).trans ?_
  dsimp only
  rw [if_neg (by simp [haligned])]
  rfl

theorem erase_of_misaligned
    (hmisaligned : ¬(offset % g.eraseSize = 0 ∧ length % g.eraseSize = 0)) :
    erase target settings offset length session =
      .error (.notErasable offset length g.eraseSize) session := by
  refine (bind_of_ok hopen _).trans ?_
  dsimp only
  rw [if_pos (by omega)]
  rfl

end Open

/-- Up to the save the request writes no file. -/
theorem failsCleanly_erase (target : Target) (settings : PlatformSettings)
    (offset length : Nat) : Run.FailsCleanly (erase target settings offset length) := by
  apply Run.FailsCleanly.bind (Flash.keepsFiles_openTarget target settings)
  rintro ⟨g, opened⟩
  dsimp only
  split
  · exact .of_keepsFiles (.throw _)
  · apply Run.FailsCleanly.bind (Flash.keepsFiles_perform _ opened)
    rintro ⟨_, erased⟩
    apply Run.FailsCleanly.bind (Run.keepsFiles_print _)
    intro _
    exact .writeFile_print _ _ _

/-- What the erase has left in the flash is saved. -/
theorem eraseAndSave_of_erased {unit : Nat} {erased : Flash}
    (herase : eraseUnits unit (Piece.tile (fun _ => unit) offset length) flash = .ok () erased)
    (hfile : session.workspace.CanHold target.image) :
    ∃ after, eraseAndSave target unit offset length flash session = .ok () after ∧
      session.workspace.write target.image erased.memory = .ok after.workspace ∧
      after.workspace.read target.image = .ok erased.memory := by
  let told : Session := { session with printed := session.printed ++
    ("Erased " ++ toString length ++ " bytes starting at " ++ Text.Hex.address offset) ++ "\n" }
  obtain ⟨saved, hsave, hwritten⟩ := @save_of_canHold target told hfile erased
  exact ⟨saved, (bind_of_ok (Flash.perform_of_ok herase session) _).trans hsave, hwritten⟩

section Erase

variable {setup : Setup} (h : setup.Tuned g flash)
  (hsettle : setup.flash.BanksSettle setup.busyPolls)
  (hwaits : setup.busyPolls < Poll.attempts setup.flash.eraseTimeout)
  (hoffset : offset % g.eraseSize = 0) (hlength : length % g.eraseSize = 0)
include h hsettle hwaits hoffset hlength

theorem eraseAndSave_outside (hpos : length ≠ 0) (hout : g.size < offset + length) :
    ∃ cause after,
      eraseAndSave target g.eraseSize offset length flash session = .error cause after := by
  obtain ⟨count, rfl⟩ := Nat.dvd_of_mod_eq_zero hlength
  have hcount : 0 < count := by
    apply Nat.pos_of_ne_zero
    rintro rfl
    exact hpos (Nat.mul_zero _)
  obtain ⟨cause, after, hunits⟩ := eraseUnits_outside h hsettle hwaits hoffset hcount hout
  exact ⟨_, _, bind_of_error (Flash.perform_of_error hunits session) _⟩

/-- A region inside the array, or an empty one anywhere, is erased and the array is saved. -/
theorem eraseAndSave_inside (hin : length = 0 ∨ offset + length ≤ g.size)
    (hfile : session.workspace.CanHold target.image) :
    let new := Bytes.overlay flash.memory offset (Bytes.fill length 0xff)
    ∃ after, eraseAndSave target g.eraseSize offset length flash session = .ok () after ∧
      session.workspace.write target.image new = .ok after.workspace ∧
      after.workspace.read target.image = .ok new := by
  intro new
  by_cases hzero : length = 0
  · subst hzero
    have hnothing : eraseUnits g.eraseSize (Piece.tile (fun _ => g.eraseSize) offset 0) flash =
        .ok () flash := by
      rw [Piece.tile_zero]
      rfl
    have hsame : new = flash.memory := by
      dsimp only [new]
      rw [Bytes.fill, if_pos rfl, Bytes.overlay_empty]
    rw [hsame]
    exact eraseAndSave_of_erased hnothing hfile
  · obtain ⟨count, rfl⟩ := Nat.dvd_of_mod_eq_zero hlength
    have hroom := hin.resolve_left hzero
    have hsize : flash.memory.size = g.size := h.attuned.memory
    obtain ⟨erased, hunits, -, hrewrites⟩ := eraseUnits_inside h hsettle hwaits hoffset hroom
    have hnew : erased.memory = new := hrewrites.eq_overlay_fill (by rwa [hsize])
    rw [← hnew]
    exact eraseAndSave_of_erased hunits hfile

end Erase

/-- Erasing a region of the image of a part is all or nothing. It succeeds exactly when the region
is made of whole units and is empty or lies in the part; the image file is then that region set in
the padded image, and else no file is written. -/
theorem erase_all_or_nothing (hpart : Part.findByName? target.chip = some part)
    (himage : session.workspace.image target.image = .ok image)
    (hfile : session.workspace.CanHold target.image)
    (hsingle : settings.flash.wiring = .single)
    (haddressing : settings.flash.addressing ≠ .threeByte ∨ part.size ≤ Geometry.bankSize)
    (hprogram : settings.flash.programTimeout ≠ 0) (herase : settings.flash.eraseTimeout ≠ 0)
    {opened : Session}
    (hopen : Flash.openTarget target settings session = .ok (g, flash) opened)
    (offset length : Nat) :
    let old := part.padded image
    let new := Bytes.overlay old offset (Bytes.fill length 0xff)
    ((∃ after, erase target settings offset length session = .ok () after) ↔
      offset % g.eraseSize = 0 ∧ length % g.eraseSize = 0 ∧
        (length = 0 ∨ offset + length ≤ g.size)) ∧
    (∀ after, erase target settings offset length session = .ok () after →
      session.workspace.write target.image new = .ok after.workspace ∧
      after.workspace.read target.image = .ok new) ∧
    (∀ cause after, erase target settings offset length session = .error cause after →
      after.workspace = session.workspace) := by
  intro old new
  obtain ⟨rfl, htuned, hmemory⟩ :=
    Flash.tuned_of_openTarget hpart himage hopen hsingle haddressing
  have hsettle := Flash.banksSettle_setup part image hprogram
  have hwaits : (Flash.setup part image settings).busyPolls < _ := Flash.attempts_pos herase
  refine and_assoc.mp ⟨?_, failsCleanly_erase target settings offset length session⟩
  by_cases haligned : offset % g.eraseSize = 0 ∧ length % g.eraseSize = 0
  · rw [erase_of_aligned hopen haligned]
    by_cases hin : length = 0 ∨ offset + length ≤ g.size
    · obtain ⟨saved, hdone, hwritten⟩ :=
        eraseAndSave_inside htuned hsettle hwaits haligned.1 haligned.2 hin hfile
      rw [hmemory] at hwritten
      rw [hdone]
      refine ⟨⟨fun _ => ⟨haligned.1, haligned.2, hin⟩, fun _ => ⟨saved, rfl⟩⟩, ?_⟩
      rintro _ ⟨⟩
      exact hwritten
    · obtain ⟨hpos, hout⟩ := not_or.mp hin
      obtain ⟨cause, failed, hrefused⟩ := @eraseAndSave_outside target offset length session g
        flash _ htuned hsettle hwaits haligned.1 haligned.2 hpos (Nat.lt_of_not_le hout)
      rw [hrefused]
      exact ⟨⟨nofun, fun h => absurd h.2.2 hin⟩, nofun⟩
  · rw [erase_of_misaligned hopen haligned]
    exact ⟨⟨nofun, fun h => absurd ⟨h.1, h.2.1⟩ haligned⟩, nofun⟩

end Request

/-- The first bank and one unit of the second are erased. -/
theorem erase_all_or_nothing_bankEnd :
    ∃ after, erase ⟨"i", "w25q256"⟩ {} 0 0x1001000 { workspace := bankEnd } = .ok () after ∧
      after.workspace.read "i" = .ok (Bytes.overlay
        (Part.w25q256.padded (Bytes.ofList [0xf0])) 0 (Bytes.fill 0x1001000 0xff)) := by
  have himage : bankEnd.image "i" = .ok (Bytes.ofList [0xf0]) := by cbv
  have hsound : (Flash.setup .w25q256 (Bytes.ofList [0xf0]) {}).Sound :=
    ⟨Part.w25q256_mem, by decide, by decide, rfl, .inl (by decide)⟩
  obtain ⟨ready, hscans, -⟩ := hsound.exists_scans Part.w25q256_takenFor rfl
  have hopen := @Flash.openTarget_of_scans ⟨"i", "w25q256"⟩ {} { workspace := bankEnd } _
    Part.findByName?_w25q256 _ himage _ _ hscans
  obtain ⟨hiff, hsaved, -⟩ := @erase_all_or_nothing ⟨"i", "w25q256"⟩ {} { workspace := bankEnd }
    _ _ _ _ Part.findByName?_w25q256 himage canHold_bankEnd rfl (.inl (by decide)) (by decide)
    (by decide) _ hopen 0 0x1001000
  obtain ⟨after, herase⟩ := hiff.mpr ⟨by decide, by decide, .inr (by decide)⟩
  exact ⟨after, herase, (hsaved after herase).2⟩

end Tool

end NorFlash
