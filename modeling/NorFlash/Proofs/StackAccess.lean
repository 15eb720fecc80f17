import NorFlash.Proofs.Stack

/-!
Reading, programming and erasing through a stack that waits long enough: in every state that
calls lead to, each operation on a range inside the part succeeds and does to the array of the
part what it is for, and nothing else.
-/
namespace NorFlash

variable {setup : Setup} {g : Geometry} {stack : Stack}

/-- A read gives the bytes of its range and changes no byte of the array. -/
theorem read_of_reaches (h : setup.Reaches g stack) (hsound : setup.Sound)
    (hpatient : setup.Patient) {offset length : Nat} (hin : offset + length ≤ g.size) :
    ∃ after : Stack,
      Driver.read offset length stack =
        .ok (Bytes.slice stack.chip.memory offset length) after ∧
      (Bytes.slice stack.chip.memory offset length).size = length ∧
      after.chip.memory = stack.chip.memory := by
  have htuned := h.tuned hsound hpatient.banksSettle
  obtain ⟨after, hread, -, hmemory⟩ := htuned.read_inside hpatient.banksSettle hin
  have hsize : stack.chip.memory.size = g.size := htuned.attuned.memory
  refine ⟨after, hread, ?_, hmemory⟩
  rw [Bytes.size_slice, hsize]
  omega

/-- Two bytes are read across the end of a bank after they have been programmed there. -/
theorem read_of_reaches_twoBanks :
    ∃ ready after : Stack, (Setup.twoBanks {} 1).Scans (.derive .w25q256 {}) ready ∧
      let stack : Stack := (Call.program 0xffffff (Bytes.ofList [0x5a, 0xa5])).after ready
      Driver.read 0xffffff 2 stack = .ok (Bytes.slice stack.chip.memory 0xffffff 2) after ∧
        (Bytes.slice stack.chip.memory 0xffffff 2).size = 2 ∧
        after.chip.memory = stack.chip.memory := by
  have hsound := @Setup.sound_twoBanks {} rfl (by decide) 1
  obtain ⟨ready, hscans, -⟩ := hsound.exists_scans Part.w25q256_takenFor rfl
  obtain ⟨after, hread⟩ := read_of_reaches
    (.called (.program 0xffffff (Bytes.ofList [0x5a, 0xa5])) (.scanned hscans)) hsound
    ⟨by decide, by decide⟩ (show 0xffffff + 2 ≤ _ by decide)
  exact ⟨ready, after, hscans, hread⟩

/-- A program clears in its range the bits that its data clears. -/
theorem program_of_reaches (h : setup.Reaches g stack) (hsound : setup.Sound)
    (hpatient : setup.Patient) {offset : Nat} {data : ByteArray}
    (hin : offset + data.size ≤ g.size) :
    ∃ after : Stack,
      Driver.program offset data stack = .ok () after ∧
      Rewrites (fun i byte => byte &&& Bytes.byteAt data (i - offset)) offset
        (offset + data.size) stack.chip.memory after.chip.memory := by
  have htuned := h.tuned hsound hpatient.banksSettle
  obtain ⟨after, hprogram, -, hrewrites⟩ :=
    htuned.program_inside hpatient.banksSettle hpatient.program hin
  exact ⟨after, hprogram, hrewrites⟩

/-- Two bytes are programmed across the end of a bank. -/
theorem program_of_reaches_twoBanks :
    ∃ ready after : Stack, (Setup.twoBanks {} 1).Scans (.derive .w25q256 {}) ready ∧
      Driver.program 0xffffff (Bytes.ofList [0x5a, 0xa5]) ready = .ok () after ∧
      Rewrites (fun i byte => byte &&& Bytes.byteAt (Bytes.ofList [0x5a, 0xa5]) (i - 0xffffff))
        0xffffff 0x1000001 ready.chip.memory after.chip.memory := by
  have hsound := @Setup.sound_twoBanks {} rfl (by decide) 1
  obtain ⟨ready, hscans, -⟩ := hsound.exists_scans Part.w25q256_takenFor rfl
  have hin : 0xffffff + (Bytes.ofList [0x5a, 0xa5]).size ≤
      (Geometry.derive .w25q256 {}).size := by decide
  obtain ⟨after, hprogram⟩ :=
    program_of_reaches (.scanned hscans) hsound ⟨by decide, by decide⟩ hin
  exact ⟨ready, after, hscans, hprogram⟩

/-- An erase sets its range to `0xff`. -/
theorem erase_of_reaches (h : setup.Reaches g stack) (hsound : setup.Sound)
    (hpatient : setup.Patient) {offset length : Nat} (hoffset : offset % g.eraseSize = 0)
    (hlength : length % g.eraseSize = 0) (hin : offset + length ≤ g.size) :
    ∃ after : Stack,
      Driver.erase offset length stack = .ok () after ∧
      Rewrites (fun _ _ => 0xff) offset (offset + length) stack.chip.memory
        after.chip.memory := by
  have htuned := h.tuned hsound hpatient.banksSettle
  obtain ⟨after, herase, -, hrewrites⟩ :=
    htuned.erase_inside hpatient.banksSettle hpatient.erase hoffset hlength hin
  exact ⟨after, herase, hrewrites⟩

/-- The last sector of a bank and the first one of the next are erased. -/
theorem erase_of_reaches_twoBanks :
    ∃ ready after : Stack, (Setup.twoBanks {} 1).Scans (.derive .w25q256 {}) ready ∧
      Driver.erase 0xfff000 0x2000 ready = .ok () after ∧
      Rewrites (fun _ _ => 0xff) 0xfff000 0x1001000 ready.chip.memory after.chip.memory := by
  have hsound := @Setup.sound_twoBanks {} rfl (by decide) 1
  obtain ⟨ready, hscans, -⟩ := hsound.exists_scans Part.w25q256_takenFor rfl
  obtain ⟨after, herase⟩ := erase_of_reaches (.scanned hscans) hsound ⟨by decide, by decide⟩
    (show 0xfff000 % _ = 0 by decide) (show 0x2000 % _ = 0 by decide)
    (show 0xfff000 + 0x2000 ≤ _ by decide)
  exact ⟨ready, after, hscans, herase⟩

end NorFlash
