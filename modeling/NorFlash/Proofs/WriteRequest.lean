import Mathlib
import NorFlash.Proofs.Requests

/-!
Programming a file into the image of a part: when the request succeeds, what the image is then,
and that a request that fails writes no file.
-/
namespace NorFlash

namespace Rewrites

variable {offset : Nat} {data before after : ByteArray}

/-- The array a program leaves reads as the data exactly where no bit had to be set for it. -/
theorem slice_eq_iff
    (h : Rewrites (fun i byte => byte &&& Bytes.byteAt data (i - offset)) offset
      (offset + data.size) before after) (hin : offset + data.size ≤ before.size) :
    Bytes.slice after offset data.size = data ↔ ∀ i, i < data.size →
      Bytes.byteAt before (offset + i) &&& Bytes.byteAt data i = Bytes.byteAt data i := by
  have hread (i : Nat) (hi : i < data.size) :
      Bytes.byteAt (Bytes.slice after offset data.size) i =
        Bytes.byteAt before (offset + i) &&& Bytes.byteAt data i := by
    rw [Bytes.byteAt_slice, if_pos hi, h.inside (Nat.le_add_right ..) (by omega),
      Nat.add_sub_cancel_left]
  constructor
  · intro hdata i hi
    rw [← hread i hi, hdata]
  · intro hbits
    have hsize : (Bytes.slice after offset data.size).size = data.size := by
      rw [Bytes.size_slice, h.size]
      omega
    apply Bytes.ext_byteAt hsize
    intro i hi
    rw [hsize] at hi
    rw [hread i hi, hbits i hi]

theorem eq_overlay
    (h : Rewrites (fun i byte => byte &&& Bytes.byteAt data (i - offset)) offset
      (offset + data.size) before after) (hin : offset + data.size ≤ before.size)
    (hbits : ∀ i, i < data.size →
      Bytes.byteAt before (offset + i) &&& Bytes.byteAt data i = Bytes.byteAt data i) :
    after = Bytes.overlay before offset data := by
  apply Bytes.ext_byteAt
  · rw [h.size, Bytes.size_overlay hin]
  · intro i _
    rw [Bytes.byteAt_overlay hin]
    by_cases hi : offset ≤ i ∧ i < offset + data.size
    · obtain ⟨k, rfl⟩ := Nat.exists_eq_add_of_le hi.1
      rw [if_pos hi, h.inside hi.1 hi.2, Nat.add_sub_cancel_left, hbits k (by omega)]
    · rw [if_neg hi, h.outside (by omega)]

end Rewrites

namespace Tool

section Pieces

variable {setup : Setup} {g : Geometry} {flash : Flash} (h : setup.Tuned g flash)
  (hsettle : setup.flash.BanksSettle setup.busyPolls)
  (hwaits : setup.busyPolls < Poll.attempts setup.flash.programTimeout)
  {offset : Nat} {data : ByteArray}
include h hsettle hwaits

/-- Programming a piece of the data is programming the data in the range of the piece. -/
theorem programPiece_inside {position length : Nat} (hdata : position + length ≤ data.size)
    (hin : offset + position + length ≤ g.size) :
    ∃ after : Flash,
      Driver.program (offset + position) (Bytes.slice data position length) flash =
        .ok () after ∧ setup.Tuned g after ∧
      Rewrites (fun i byte => byte &&& Bytes.byteAt data (i - offset)) (offset + position)
        (offset + position + length) flash.memory after.memory := by
  have hsize : (Bytes.slice data position length).size = length := by
    rw [Bytes.size_slice]
    omega
  obtain ⟨after, hprogram, hafter, hrewrites⟩ := h.program_inside hsettle hwaits
    (show offset + position + (Bytes.slice data position length).size ≤ g.size by omega)
  rw [hsize] at hrewrites
  refine ⟨after, hprogram, hafter, hrewrites.congr fun i byte hlow hhigh => ?_⟩
  have hplace : position + (i - (offset + position)) = i - offset := by omega
  rw [Bytes.byteAt_slice, if_pos (by omega), hplace]

/-- Pieces that lie inside the array are all programmed. -/
theorem programPieces_inside {position length : Nat} (hdata : position + length ≤ data.size)
    (hin : offset + position + length ≤ g.size) :
    ∃ after : Flash,
      programPieces offset data (Piece.tile (fun _ => writeChunk) position length) flash =
        .ok () after ∧ setup.Tuned g after ∧
      Rewrites (fun i byte => byte &&& Bytes.byteAt data (i - offset)) (offset + position)
        (offset + position + length) flash.memory after.memory := by
  induction length using Nat.strongRecOn generalizing position flash with
  | _ length ih =>
    by_cases hzero : length = 0
    · subst hzero
      rw [Piece.tile_zero]
      exact ⟨flash, rfl, h, .refl _ _ _⟩
    · rw [Piece.tile_of_ne_zero _ _ hzero]
      let n := min length (max 1 writeChunk)
      have hn : 0 < n ∧ n ≤ length := by omega
      obtain ⟨between, hfirst, hbetween, hpiece⟩ := programPiece_inside h hsettle hwaits
        (show position + n ≤ data.size by omega) (show offset + position + n ≤ g.size by omega)
      obtain ⟨after, hrest, hafter, hrewrites⟩ := ih (length - n) (by omega) hbetween
        (show position + n + (length - n) ≤ data.size by omega) (by omega)
      have hmeet : offset + (position + n) = offset + position + n := by omega
      have hstop : offset + position + n + (length - n) = offset + position + length := by omega
      rw [hmeet, hstop] at hrewrites
      exact ⟨after, (bind_of_ok hfirst _).trans hrest, hafter,
        hpiece.trans hrewrites (by omega) (by omega)⟩

/-- Pieces that leave the array are not all programmed. -/
theorem programPieces_outside {position length : Nat} (hpos : 0 < length)
    (hdata : position + length ≤ data.size) (hout : g.size < offset + position + length) :
    ∃ cause after,
      programPieces offset data (Piece.tile (fun _ => writeChunk) position length) flash =
        .error cause after := by
  induction length using Nat.strongRecOn generalizing position flash with
  | _ length ih =>
    rw [Piece.tile_of_ne_zero _ _ (Nat.ne_of_gt hpos)]
    let n := min length (max 1 writeChunk)
    have hn : 0 < n ∧ n ≤ length := by omega
    by_cases hin : offset + position + n ≤ g.size
    · obtain ⟨between, hfirst, hbetween, -⟩ := programPiece_inside h hsettle hwaits
        (show position + n ≤ data.size by omega) hin
      obtain ⟨cause, after, hrest⟩ := ih (length - n) (by omega) hbetween (by omega)
        (show position + n + (length - n) ≤ data.size by omega) (by omega)
      exact ⟨cause, after, (bind_of_ok hfirst _).trans hrest⟩
    · have hsize : (Bytes.slice data position n).size = n := by
        rw [Bytes.size_slice]
        omega
      obtain ⟨after, hrefused⟩ := h.program_outside
        (show g.size < offset + position + (Bytes.slice data position n).size by omega)
      exact ⟨_, after, bind_of_error hrefused _⟩

end Pieces

section Request

variable {target : Target} {settings : PlatformSettings} {offset : Nat} {input : String}
  {session : Session} {data image : ByteArray} {part : Part} {g : Geometry} {flash : Flash}

/-- Programs the data into the flash and saves the image when it reads back. -/
def programAndSave (target : Target) (offset : Nat) (data : ByteArray) (flash : Flash) :
    Run Unit := do
  let (_, flash) ← flash.perform
    (programPieces offset data (Piece.tile (fun _ => writeChunk) 0 data.size))
  let (check, flash) ← flash.perform (Driver.read offset data.size)
  if check != data then
    throw .verification
  Run.print ("Wrote " ++ toString data.size ++ " bytes at " ++ Text.Hex.address offset)
  flash.save target

theorem write_eq (hinput : session.workspace.read input = .ok data) (hdata : data.size ≠ 0)
    (hopen : Flash.openTarget target settings session = .ok (g, flash) session) :
    write target settings offset input session =
      programAndSave target offset data flash session := by
  refine (bind_of_ok (Run.readFile_ok.mpr ⟨hinput, rfl⟩) _).trans ?_
  rw [if_neg hdata]
  exact bind_of_ok hopen _

/-- Up to the save the request writes no file. -/
theorem failsCleanly_write (target : Target) (settings : PlatformSettings) (offset : Nat)
    (input : String) : Run.FailsCleanly (write target settings offset input) := by
  apply Run.FailsCleanly.bind (Run.keepsFiles_readFile input)
  intro data
  split
  · exact .of_keepsFiles (.throw _)
  · apply Run.FailsCleanly.bind (Flash.keepsFiles_openTarget target settings)
    rintro ⟨_, opened⟩
    apply Run.FailsCleanly.bind (Flash.keepsFiles_perform _ opened)
    rintro ⟨_, programmed⟩
    apply Run.FailsCleanly.bind (Flash.keepsFiles_perform _ programmed)
    rintro ⟨check, checked⟩
    dsimp only
    split
    · exact .of_keepsFiles (.throw _)
    · apply Run.FailsCleanly.bind (Run.keepsFiles_print _)
      intro _
      exact .writeFile_print _ _ _

section Program

variable {setup : Setup} (h : setup.Tuned g flash)
  (hsettle : setup.flash.BanksSettle setup.busyPolls)
  (hwaits : setup.busyPolls < Poll.attempts setup.flash.programTimeout)
include h hsettle hwaits

theorem programAndSave_outside (hdata : data.size ≠ 0) (hout : g.size < offset + data.size) :
    ∃ cause after, programAndSave target offset data flash session = .error cause after := by
  obtain ⟨cause, after, hpieces⟩ := programPieces_outside h hsettle hwaits
    (Nat.pos_of_ne_zero hdata) (Nat.le_of_eq (Nat.zero_add _))
    (show g.size < offset + 0 + _ by omega)
  exact ⟨_, _, bind_of_error (Flash.perform_of_error hpieces session) _⟩

/-- Data that fits is programmed, and the array then reads as it unless a bit had to be set. -/
theorem programAndSave_inside (hin : offset + data.size ≤ g.size) :
    ∃ programmed : Flash,
      Rewrites (fun i byte => byte &&& Bytes.byteAt data (i - offset)) offset
        (offset + data.size) flash.memory programmed.memory ∧
      (Bytes.slice programmed.memory offset data.size ≠ data →
        programAndSave target offset data flash session = .error .verification session) ∧
      (Bytes.slice programmed.memory offset data.size = data →
        programAndSave target offset data flash session =
          (Run.print ("Wrote " ++ toString data.size ++ " bytes at " ++ Text.Hex.address offset)
            >>= fun _ => programmed.save target) session) := by
  obtain ⟨programmed, hpieces, hprogrammed, hrewrites⟩ := programPieces_inside h hsettle hwaits
    (Nat.le_of_eq (Nat.zero_add data.size)) (show offset + 0 + data.size ≤ g.size by omega)
  obtain ⟨checked, hread, -, hmemory⟩ := hprogrammed.read_inside hsettle hin
  have hsame : Flash.memory checked = programmed.memory := hmemory
  have hcheck : Driver.read offset data.size programmed =
      .ok (Bytes.slice (Flash.memory checked) offset data.size) checked := by
    rw [hsame]
    exact hread
  refine ⟨checked, ?_, fun hdiffers => ?_, fun hequal => ?_⟩
  · rw [hsame]
    simpa only [Nat.add_zero] using hrewrites
  · refine (bind_of_ok (Flash.perform_of_ok hpieces session) _).trans ?_
    refine (bind_of_ok (Flash.perform_of_ok hcheck session) _).trans ?_
    dsimp only
    rw [if_pos (Bytes.bne_iff.mpr hdiffers)]
    rfl
  · refine (bind_of_ok (Flash.perform_of_ok hpieces session) _).trans ?_
    refine (bind_of_ok (Flash.perform_of_ok hcheck session) _).trans ?_
    dsimp only
    rw [if_neg (mt Bytes.bne_iff.mp (not_not_intro hequal))]

/-- Data that has to set a bit does not read back. -/
theorem programAndSave_unset (hin : offset + data.size ≤ g.size)
    (hbits : ¬∀ i, i < data.size →
      Bytes.byteAt flash.memory (offset + i) &&& Bytes.byteAt data i = Bytes.byteAt data i) :
    ∃ cause after, programAndSave target offset data flash session = .error cause after := by
  obtain ⟨programmed, hrewrites, hrefused, -⟩ :=
    @programAndSave_inside target offset session data g flash setup h hsettle hwaits hin
  have hold : offset + data.size ≤ flash.memory.size := by
    rwa [show flash.memory.size = g.size from h.attuned.memory]
  exact ⟨_, _, hrefused ((not_congr (hrewrites.slice_eq_iff hold)).mpr hbits)⟩

/-- Data that has to set no bit replaces its range of the array, and the array is saved. -/
theorem programAndSave_set (hin : offset + data.size ≤ g.size)
    (hbits : ∀ i, i < data.size →
      Bytes.byteAt flash.memory (offset + i) &&& Bytes.byteAt data i = Bytes.byteAt data i)
    (hfile : session.workspace.CanHold target.image) :
    let new := Bytes.overlay flash.memory offset data
    ∃ after, programAndSave target offset data flash session = .ok () after ∧
      session.workspace.write target.image new = .ok after.workspace ∧
      after.workspace.read target.image = .ok new := by
  obtain ⟨programmed, hrewrites, -, hprogram⟩ :=
    @programAndSave_inside target offset session data g flash setup h hsettle hwaits hin
  have hold : offset + data.size ≤ flash.memory.size := by
    rwa [show flash.memory.size = g.size from h.attuned.memory]
  let told : Session := { session with printed := session.printed ++
    ("Wrote " ++ toString data.size ++ " bytes at " ++ Text.Hex.address offset) ++ "\n" }
  obtain ⟨saved, hsave, hwritten⟩ := @save_of_canHold target told hfile programmed
  rw [hrewrites.eq_overlay hold hbits] at hwritten
  exact ⟨saved, (hprogram ((hrewrites.slice_eq_iff hold).mpr hbits)).trans hsave, hwritten⟩

end Program

/-- Programming a file into the image of a part is all or nothing. It succeeds exactly when the
range of the data lies in the part and no bit has to be set in it; the image file is then that
range replaced in the padded image, and else no file is written. -/
theorem write_all_or_nothing (hpart : Part.findByName? target.chip = some part)
    (himage : session.workspace.image target.image = .ok image)
    (hfile : session.workspace.CanHold target.image)
    (hinput : session.workspace.read input = .ok data) (hdata : data.size ≠ 0)
    (hsingle : settings.flash.wiring = .single)
    (haddressing : settings.flash.addressing ≠ .threeByte ∨ part.size ≤ Geometry.bankSize)
    (htimeout : settings.flash.programTimeout ≠ 0) {opened : Session}
    (hopen : Flash.openTarget target settings session = .ok (g, flash) opened) (offset : Nat) :
    let old := part.padded image
    ((∃ after, write target settings offset input session = .ok () after) ↔
      offset + data.size ≤ part.size ∧ ∀ i, i < data.size →
        Bytes.byteAt old (offset + i) &&& Bytes.byteAt data i = Bytes.byteAt data i) ∧
    (∀ after, write target settings offset input session = .ok () after →
      session.workspace.write target.image (Bytes.overlay old offset data) = .ok after.workspace ∧
      after.workspace.read target.image = .ok (Bytes.overlay old offset data)) ∧
    (∀ cause after, write target settings offset input session = .error cause after →
      after.workspace = session.workspace) := by
  intro old
  obtain ⟨rfl, htuned, hmemory⟩ :=
    Flash.tuned_of_openTarget hpart himage hopen hsingle haddressing
  have hsettle := Flash.banksSettle_setup part image htimeout
  have hwaits := Flash.waits_setup part image htimeout
  have hsize : g.size = part.size := htuned.size_eq
  refine and_assoc.mp ⟨?_, failsCleanly_write target settings offset input session⟩
  rw [write_eq hinput hdata hopen, ← hsize]
  dsimp only [old]
  rw [← hmemory]
  -- a run that fails satisfies both sides: it has no result, and one of the conditions is not met
  by_cases hin : offset + data.size ≤ g.size
  · by_cases hbits : ∀ i, i < data.size →
        Bytes.byteAt flash.memory (offset + i) &&& Bytes.byteAt data i = Bytes.byteAt data i
    · obtain ⟨saved, hdone, hwritten⟩ := programAndSave_set htuned hsettle hwaits hin hbits hfile
      rw [hdone]
      refine ⟨⟨fun _ => ⟨hin, hbits⟩, fun _ => ⟨saved, rfl⟩⟩, ?_⟩
      rintro _ ⟨⟩
      exact hwritten
    · obtain ⟨cause, failed, hunset⟩ := @programAndSave_unset target offset session data g flash
        _ htuned hsettle hwaits hin hbits
      rw [hunset]
      exact ⟨⟨nofun, fun h => absurd h.2 hbits⟩, nofun⟩
  · obtain ⟨cause, failed, hrefused⟩ := @programAndSave_outside target offset session data g flash
      _ htuned hsettle hwaits hdata (Nat.lt_of_not_le hin)
    rw [hrefused]
    exact ⟨⟨nofun, fun h => absurd h.1 hin⟩, nofun⟩

end Request

/-- An image of one byte and two bytes to be programmed. -/
def bankEnd : Workspace where
  files := [(scratchDirectory ++ ["i"], Bytes.ofList [0xf0]),
    (scratchDirectory ++ ["d"], Bytes.ofList [0x5a, 0xa5])]

theorem canHold_bankEnd : bankEnd.CanHold "i" := by
  refine ⟨scratchDirectory ++ ["i"], by cbv, fun node hnode => ?_⟩
  have hchip : bankEnd.node? (scratchDirectory ++ ["i"]) =
      some (.file (Bytes.ofList [0xf0])) := by cbv
  exact ⟨_, Option.some.inj (hnode.symm.trans hchip)⟩

/-- Two bytes are written across the end of a bank. -/
theorem write_all_or_nothing_bankEnd :
    ∃ after, write ⟨"i", "w25q256"⟩ {} 0xffffff "d" { workspace := bankEnd } =
        .ok () after ∧
      after.workspace.read "i" = .ok (Bytes.overlay
        (Part.w25q256.padded (Bytes.ofList [0xf0])) 0xffffff (Bytes.ofList [0x5a, 0xa5])) := by
  have himage : bankEnd.image "i" = .ok (Bytes.ofList [0xf0]) := by cbv
  have hsound : (Flash.setup .w25q256 (Bytes.ofList [0xf0]) {}).Sound :=
    ⟨Part.w25q256_mem, by decide, by decide, rfl, .inl (by decide)⟩
  obtain ⟨ready, hscans, -⟩ := hsound.exists_scans Part.w25q256_takenFor rfl
  have hopen := @Flash.openTarget_of_scans ⟨"i", "w25q256"⟩ {} { workspace := bankEnd } _
    Part.findByName?_w25q256 _ himage _ _ hscans
  obtain ⟨hiff, hsaved, -⟩ := @write_all_or_nothing ⟨"i", "w25q256"⟩ {} "d"
    { workspace := bankEnd } _ _ _ _ _ Part.findByName?_w25q256 himage canHold_bankEnd
    (show bankEnd.read "d" = .ok (Bytes.ofList [0x5a, 0xa5]) by cbv) (by decide) rfl
    (.inl (by decide)) (by decide) _ hopen 0xffffff
  have hold (k : Nat) (hk : k < 2) :
      Bytes.byteAt (Part.w25q256.padded (Bytes.ofList [0xf0])) (0xffffff + k) = 0xff := by
    have hsize : Part.w25q256.size = 0x2000000 := by decide
    rw [Part.padded, Bytes.byteAt_overlay (by rw [Bytes.size_fill, hsize]; decide),
      if_neg (by rw [Bytes.size_ofList, List.length_singleton]; omega), Bytes.byteAt_fill,
      if_pos (by omega)]
  have hbits (k : Nat) (hk : k < (Bytes.ofList [0x5a, 0xa5]).size) :
      Bytes.byteAt (Part.w25q256.padded (Bytes.ofList [0xf0])) (0xffffff + k) &&&
          Bytes.byteAt (Bytes.ofList [0x5a, 0xa5]) k =
        Bytes.byteAt (Bytes.ofList [0x5a, 0xa5]) k := by
    have hk : k < 2 := hk
    rw [hold k hk]
    rcases (show k = 0 ∨ k = 1 by omega) with rfl | rfl <;> decide
  obtain ⟨after, hwrite⟩ := hiff.mpr ⟨by decide, hbits⟩
  exact ⟨after, hwrite, (hsaved after hwrite).2⟩

end Tool

end NorFlash
