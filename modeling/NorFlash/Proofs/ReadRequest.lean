import Mathlib
import NorFlash.Proofs.PoolAccess
import NorFlash.Proofs.Requests
import NorFlash.Proofs.ScratchRead

/-!
Reading a region of a part into a file: through the pool, the scratch buffer and the banks of the
part come exactly the bytes of the region, and the window they are read through is the smallest
one of whole pages.
-/
namespace NorFlash

open Block

section Window

variable {offset length pageSize : Nat} (hpage : 0 < pageSize)
include hpage

theorem Tool.isAligned_alignedWindow :
    (alignedWindow offset length pageSize).isAligned pageSize = true := by
  have hlength : ((offset + length + pageSize - 1) / pageSize * pageSize -
      offset / pageSize * pageSize) % pageSize = 0 := by
    rw [← Nat.sub_mul]
    exact Nat.mul_mod_left ..
  simp only [Region.isAligned, alignedWindow, Nat.mul_mod_left, hlength, decide_true, Bool.and_true]
  exact decide_eq_true (Nat.ne_of_gt hpage)

/-- The window holds the region. -/
theorem Tool.alignedWindow_holds :
    (alignedWindow offset length pageSize).offset ≤ offset ∧
      offset + length ≤ (alignedWindow offset length pageSize).offset +
        (alignedWindow offset length pageSize).length := by
  have hbase := Nat.div_mul_le_self offset pageSize
  have hstop := Nat.div_add_mod (offset + length + pageSize - 1) pageSize
  have hmod := Nat.mod_lt (offset + length + pageSize - 1) hpage
  rw [Nat.mul_comm] at hstop
  dsimp only [alignedWindow]
  omega

/-- Every window of whole pages that holds the region holds this one. -/
theorem Tool.alignedWindow_least {other : Region} (haligned : other.isAligned pageSize = true)
    (hlow : other.offset ≤ offset) (hhigh : offset + length ≤ other.offset + other.length) :
    other.offset ≤ (alignedWindow offset length pageSize).offset ∧
      (alignedWindow offset length pageSize).offset +
        (alignedWindow offset length pageSize).length ≤ other.offset + other.length := by
  simp only [Region.isAligned, Bool.and_eq_true, decide_eq_true_eq] at haligned
  obtain ⟨⟨-, hoffset⟩, hlength⟩ := haligned
  obtain ⟨first, hfirst⟩ := Nat.dvd_of_mod_eq_zero hoffset
  obtain ⟨count, hcount⟩ := Nat.dvd_of_mod_eq_zero hlength
  obtain ⟨hbase, hstop⟩ := @Tool.alignedWindow_holds offset length pageSize hpage
  have hend : other.offset + other.length = (first + count) * pageSize := by
    rw [hfirst, hcount, Nat.add_mul, Nat.mul_comm first, Nat.mul_comm count]
  have hpages : (offset + length + pageSize - 1) / pageSize ≤ first + count := by
    apply Nat.le_of_lt_succ
    rw [Nat.div_lt_iff_lt_mul hpage, Nat.succ_mul, ← hend]
    omega
  have hover := Nat.mul_le_mul_right pageSize hpages
  rw [← hend] at hover
  constructor
  · have hunder : first ≤ offset / pageSize := by
      rw [Nat.le_div_iff_mul_le hpage, Nat.mul_comm, ← hfirst]
      exact hlow
    rw [hfirst, Nat.mul_comm]
    exact Nat.mul_le_mul_right pageSize hunder
  · dsimp only [Tool.alignedWindow] at hbase hstop ⊢
    omega

end Window

/-- The driver of a tuned stack serves the array of its part. -/
theorem serves_tuned {setup : Setup} (hsettle : setup.flash.BanksSettle setup.busyPolls)
    (g : Geometry) (memory : ByteArray) :
    FlashDevice.Serves memory fun stack : Stack =>
      setup.Tuned g stack ∧ stack.chip.memory = memory := by
  rintro stack ⟨htuned, rfl⟩ address buffer hin
  have hsize : stack.chip.memory.size = g.size := htuned.attuned.memory
  rw [hsize] at hin
  obtain ⟨after, hread, hafter, hmemory⟩ := htuned.read_inside hsettle hin
  have hfull : (Bytes.slice stack.chip.memory address buffer.size).size = buffer.size := by
    rw [Bytes.size_slice]
    omega
  refine ⟨after, ?_, hafter, hmemory⟩
  simp only [RawFlash.read, hread, hfull, Bytes.overlay_all (Nat.le_of_eq hfull.symm)]

namespace Tool

section Pieces

variable {memory : ByteArray} {ready : Flash → Prop} (h : FlashDevice.Serves memory ready)
  (hlow : memory.size ≤ UInt32.size) {key : Nat} {rest : List (Option (Slot (FlashDevice Flash)))}
  {registered : List DeviceKind} {window : Window} {device : FlashDevice Flash}
include h hlow

/-- The pieces of a region come one behind the other, by induction on what is left of it. -/
theorem readPieces_serves (position length : Nat) (done : ByteArray) (hready : ready device.raw)
    (hscratch : 0 < device.scratch.length) (hin : window.position + length ≤ memory.size)
    (hfits : length ≤ window.size) :
    ∃ device', readPieces ⟨0, key⟩ (Piece.tile (fun _ => readChunk) position length) done
        (.holding key device (some window) rest registered) =
      .ok (done ++ Bytes.slice memory window.position length)
        (.holding key device' (some (window.advance length)) rest registered) := by
  induction length using Nat.strongRecOn generalizing position done window device with
  | _ length ih =>
    by_cases hzero : length = 0
    · subst hzero
      rw [Piece.tile_zero, Bytes.slice_zero, ByteArray.append_empty]
      exact ⟨device, rfl⟩
    · rw [Piece.tile_of_ne_zero _ _ hzero]
      let n := min length (max 1 readChunk)
      have hn : 0 < n ∧ n ≤ length := by omega
      obtain ⟨between, hread, -, -, hlength, hbetween⟩ := h.delivers.read hready hscratch
        (show window.position + n ≤ memory.size by omega) hlow
      have hposition := window.position_advance n
      obtain ⟨device', hpieces⟩ := ih (length - n) (by omega) (position + n)
        (done ++ Bytes.slice memory window.position n) hbetween (by omega)
        (show (window.advance n).position + (length - n) ≤ memory.size by omega)
        (show length - n ≤ window.size by omega)
      have hend : n + (length - n) = length := by omega
      refine ⟨device', (bind_of_ok (Pool.read_holding hn.1 (by omega) hread) _).trans
        (hpieces.trans ?_)⟩
      rw [hposition, ByteArray.append_assoc, Bytes.slice_append_slice,
        Window.advance_advance, hend]

end Pieces

section Request

variable {target : Target} {settings : PlatformSettings} {offset length : Nat} {output : String}
  {session : Session} {image : ByteArray} {part : Part} {g : Geometry} {flash : Flash}

/-- Reads a region through a window of whole pages. -/
def fetchRegion (offset length pageSize : Nat) (handle : Handle) :
    EStateM Error (Pool (FlashDevice Flash)) ByteArray := do
  let window := alignedWindow offset length pageSize
  let entity ← Pool.openWindow handle window
  Pool.seek entity .set (offset - window.offset)
  let bytes ← readPieces entity (Piece.tile (fun _ => readChunk) 0 length) .empty
  Pool.close entity
  let _ ← Pool.deviceClose handle
  return bytes

theorem read_eq (hpos : 0 < length) (hin : offset + length ≤ g.size)
    (hopen : Flash.openTarget target settings session = .ok (g, flash) session) :
    read target settings offset length output session =
      (withDevice (storageDevice settings.storage flash)
          (fetchRegion offset length settings.storage.pageSize) >>= fun bytes =>
        Run.writeFile output bytes >>= fun _ =>
          Run.print ("Wrote " ++ toString bytes.size ++ " bytes to " ++ Text.quoted output))
        session := by
  unfold read
  rw [if_neg (Nat.ne_of_gt hpos)]
  refine (bind_of_ok hopen _).trans ?_
  dsimp only
  rw [if_neg (Nat.not_lt.mpr hin)]
  rfl

section Bound

variable {α : Type} {device : FlashDevice Flash}
  (action : Handle → EStateM Error (Pool (FlashDevice Flash)) α)

/-- A device that is accepted is bound to the first slot of the pool. -/
theorem withDevice_of_isValid (hvalid : device.isValid = true) (session : Session) :
    withDevice device action session =
      match action ⟨0, device.key⟩ (.holding device.key device none [none] [.flash]) with
      | .ok value _ => .ok value session
      | .error cause _ => .error (.stack cause) session := by
  have hregister := @Pool.register_empty (FlashDevice Flash) .flash poolSlots
  have hopen : Pool.deviceOpen device ⟨List.replicate poolSlots none, [.flash], 0⟩ =
      .ok ⟨0, device.key⟩ (.holding device.key device none [none] [.flash]) :=
    Pool.deviceOpen_free (if_pos hvalid)
  unfold withDevice
  rw [hregister]
  dsimp only
  rw [hopen]
  dsimp only
  cases action ⟨0, device.key⟩ (.holding device.key device none [none] [.flash]) <;> rfl

/-- Any other device is refused before anything is done with it. -/
theorem withDevice_of_not_isValid (hinvalid : device.isValid = false) (session : Session) :
    withDevice device action session = .error (.stack .invalidArgument) session := by
  have hregister := @Pool.register_empty (FlashDevice Flash) .flash poolSlots
  have hstart : Device.start device = .error .invalidArgument device :=
    if_neg (by rw [hinvalid]; exact Bool.false_ne_true)
  have hopen : Pool.deviceOpen device ⟨List.replicate poolSlots none, [.flash], 0⟩ =
      .error ⟨.invalidArgument, device⟩ ⟨List.replicate poolSlots none, [.flash], 0⟩ :=
    Pool.deviceOpen_of_refuses (.unfit (List.mem_singleton.mpr rfl) hstart)
  unfold withDevice
  rw [hregister]
  dsimp only
  rw [hopen]
  rfl

end Bound

/-- What a device that is accepted over flash that serves a memory gives for a region. -/
theorem fetchRegion_serves {memory : ByteArray} {ready : Flash → Prop}
    (h : FlashDevice.Serves memory ready) (hlow : memory.size ≤ UInt32.size)
    {device : FlashDevice Flash} (hready : ready device.raw) (hvalid : device.isValid = true)
    (hpos : 0 < length) (hin : offset + length ≤ memory.size) (session : Session) :
    withDevice device (fetchRegion offset length device.spec.pageSize) session =
      .ok (Bytes.slice memory offset length) session := by
  let window := alignedWindow offset length device.spec.pageSize
  obtain ⟨hpage, hscratch⟩ := device.pos_of_isValid hvalid
  obtain ⟨hbase, hstop⟩ :
      window.offset ≤ offset ∧ offset + length ≤ window.offset + window.length :=
    alignedWindow_holds hpage
  have hwindow := @Pool.openWindow_holding _ device.key device [none] [.flash] _ window
    (isAligned_alignedWindow hpage)
  have hseek := @Pool.seek_holding _ device.key device (.ofRegion window) [none] [.flash]
    (offset - window.offset) (show offset - window.offset < window.length by omega)
  rw [Int.ofNat_sub hbase] at hseek
  let sought : Window := { Window.ofRegion window with cursor := offset - window.offset }
  have hposition : sought.position = offset := Nat.add_sub_of_le hbase
  obtain ⟨device', hpieces⟩ := @readPieces_serves _ _ h hlow device.key [none] [.flash] sought
    device 0 length .empty hready hscratch (by rwa [hposition])
    (show length ≤ window.length by omega)
  rw [hposition, ByteArray.empty_append] at hpieces
  have hfetch : fetchRegion offset length device.spec.pageSize ⟨0, device.key⟩
      (.holding device.key device none [none] [.flash]) =
      .ok (Bytes.slice memory offset length) ⟨[none, none], [.flash], 0⟩ := by
    refine (bind_of_ok hwindow _).trans ((bind_of_ok hseek _).trans ?_)
    refine (bind_of_ok hpieces _).trans ((bind_of_ok Pool.close_holding _).trans ?_)
    exact bind_of_ok Pool.deviceClose_holding _
  rw [withDevice_of_isValid _ hvalid, hfetch]

/-- A region inside the part is read into a file as it stands in the padded image, and no other
file changes. The window it is read through has whole pages, holds the region, and lies in every
other window that does so. -/
theorem read_region (hpart : Part.findByName? target.chip = some part)
    (himage : session.workspace.image target.image = .ok image)
    (hsingle : settings.flash.wiring = .single)
    (haddressing : settings.flash.addressing ≠ .threeByte ∨ part.size ≤ Geometry.bankSize)
    (htimeout : settings.flash.programTimeout ≠ 0) {opened : Session}
    (hopen : Flash.openTarget target settings session = .ok (g, flash) opened)
    (hstorage : (storageDevice settings.storage flash).isValid = true)
    (hpos : 0 < length) (hin : offset + length ≤ g.size)
    (houtput : session.workspace.CanHold output) :
    let bytes := Bytes.slice (part.padded image) offset length
    let pageSize := settings.storage.pageSize
    let window := alignedWindow offset length pageSize
    (∃ after, read target settings offset length output session = .ok () after ∧
      bytes.size = length ∧ session.workspace.write output bytes = .ok after.workspace ∧
      after.workspace.read output = .ok bytes ∧
      (session.workspace.target target.image ≠ session.workspace.target output → ∀ node,
        after.workspace.locate target.image = .ok node ↔
          session.workspace.locate target.image = .ok node)) ∧
    window.isAligned pageSize = true ∧ window.offset ≤ offset ∧
    offset + length ≤ window.offset + window.length ∧
    ∀ other : Region, other.isAligned pageSize = true → other.offset ≤ offset →
      offset + length ≤ other.offset + other.length →
      other.offset ≤ window.offset ∧
        window.offset + window.length ≤ other.offset + other.length := by
  intro bytes pageSize window
  obtain ⟨rfl, htuned, hmemory⟩ :=
    Flash.tuned_of_openTarget hpart himage hopen hsingle haddressing
  have hserves := serves_tuned (Flash.banksSettle_setup part image htimeout) g (part.padded image)
  have hsize : (part.padded image).size = g.size := by
    rw [← hmemory]
    exact htuned.attuned.memory
  have hlow : (part.padded image).size ≤ UInt32.size := by
    rw [hsize]
    exact Nat.le_of_lt htuned.plain.size_lt
  have hpage : 0 < pageSize := (FlashDevice.pos_of_isValid _ hstorage).1
  refine ⟨?_, isAligned_alignedWindow hpage, (alignedWindow_holds hpage).1,
    (alignedWindow_holds hpage).2, fun other => alignedWindow_least hpage⟩
  have hfetch : withDevice (storageDevice settings.storage flash)
      (fetchRegion offset length pageSize) session = .ok bytes session :=
    @fetchRegion_serves offset length _ _ hserves hlow (storageDevice settings.storage flash)
      ⟨htuned, hmemory⟩ hstorage hpos (by omega) session
  obtain ⟨written, hwrite, hread, helsewhere⟩ := houtput.write bytes
  obtain ⟨after, hdone, rfl⟩ := Run.exists_writeFile_print hwrite
    ("Wrote " ++ toString bytes.size ++ " bytes to " ++ Text.quoted output)
  refine ⟨after, ?_, ?_, hwrite, hread, helsewhere target.image⟩
  · rw [read_eq hpos hin hopen]
    exact (bind_of_ok hfetch _).trans hdone
  · rw [Bytes.size_slice]
    omega

end Request

/-- An image of one byte. -/
def oneByte : Workspace where
  files := [(scratchDirectory ++ ["i"], Bytes.ofList [0xf0])]

/-- Two bytes are read across the end of a bank. -/
theorem read_region_oneByte :
    ∃ after, read ⟨"i", "w25q256"⟩ {} 0xffffff 2 "o" { workspace := oneByte } = .ok () after ∧
      after.workspace.read "o" =
        .ok (Bytes.slice (Part.w25q256.padded (Bytes.ofList [0xf0])) 0xffffff 2) ∧
      ∀ node, after.workspace.locate "i" = .ok node ↔ oneByte.locate "i" = .ok node := by
  have himage : oneByte.image "i" = .ok (Bytes.ofList [0xf0]) := by cbv
  have hi : oneByte.target "i" = .ok (scratchDirectory ++ ["i"]) := by cbv
  have ho : oneByte.target "o" = .ok (scratchDirectory ++ ["o"]) := by cbv
  have houtput : oneByte.CanHold "o" := by
    have hnone : (oneByte.node? (scratchDirectory ++ ["o"])).isNone = true := by cbv
    refine ⟨_, ho, fun node hnode => ?_⟩
    rw [hnode] at hnone
    cases hnone
  have hsound : (Flash.setup .w25q256 (Bytes.ofList [0xf0]) {}).Sound :=
    ⟨Part.w25q256_mem, by decide, by decide, rfl, .inl (by decide)⟩
  obtain ⟨ready, hscans, -⟩ := hsound.exists_scans Part.w25q256_takenFor rfl
  have hopen := @Flash.openTarget_of_scans ⟨"i", "w25q256"⟩ {} { workspace := oneByte } _
    Part.findByName?_w25q256 _ himage _ _ hscans
  have hvalid : (storageDevice {} ready).isValid = true := by
    have hpage : FlashDevice.isPowerOfTwo 2048 = true := by decide +kernel
    have hregion : Region.isAligned ⟨0x40000000, 0x800000⟩ 2048 = true := by decide
    simp only [FlashDevice.isValid, Bool.and_eq_true, decide_eq_true_eq]
    exact ⟨⟨⟨hpage, Nat.succ_ne_zero _⟩, hregion⟩, rfl⟩
  obtain ⟨⟨after, hdone, -, -, hread, helsewhere⟩, -⟩ :=
    @read_region ⟨"i", "w25q256"⟩ {} 0xffffff 2 "o" { workspace := oneByte } _ _ _ _
      Part.findByName?_w25q256 himage rfl (.inl (by decide)) (by decide) _ hopen hvalid
      (by decide) (show 0xffffff + 2 ≤ _ by decide) houtput
  refine ⟨after, hdone, hread, helsewhere ?_⟩
  intro hsame
  exact absurd (Except.ok.inj (hi.symm.trans (hsame.trans ho))) (by decide)

end Tool

end NorFlash
