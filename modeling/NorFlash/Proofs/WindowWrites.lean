import NorFlash.Block.Memory
import NorFlash.Proofs.PoolLedger

/-!
What the calls through an entity do to the memory that it is open on. A write is held inside the
memory, but not inside the window: a window that ends before the memory does not confine it.
-/
namespace NorFlash.Block

/-- The position of the cursor is a 64-bit word, and so is any other in the window. -/
structure Window.Addressed (window : Window) : Prop where
  size_le : window.base + window.size ≤ UInt64.size
  cursor_lt : window.base + window.cursor < UInt64.size

variable {ε : Type} [Device ε]

namespace EntityCall

/-- Makes calls through an entity one after the other, whatever they return. -/
def run {δ : Type} [Device δ] (entity : Entity) (calls : List EntityCall) (pool : Pool δ) :
    Pool δ :=
  calls.foldl (fun pool call => stateAfter (call.perform entity pool)) pool

/-- A write, where the cursor is when it is made, ends inside the window. -/
def FitsWindow {δ : Type} (entity : Entity) (pool : Pool δ) : EntityCall → Prop
  | write bytes =>
    match answerOf (Pool.window entity pool) with
    | .ok window => window.cursor + bytes.size ≤ window.size
    | .error _ => True
  | _ => True

/-- Each write of a run ends inside the window. -/
def RunFits {δ : Type} [Device δ] (entity : Entity) : List EntityCall → Pool δ → Prop
  | [], _ => True
  | call :: calls, pool =>
    call.FitsWindow entity pool ∧ RunFits entity calls (stateAfter (call.perform entity pool))

variable {pool : Pool (MemoryDevice ⊕ ε)} {entity : Entity} {key : Nat} {memory : ByteArray}
  {window : Window}

/-- What a call leaves of a memory: all of it, or a write has been laid over it at the cursor. -/
def Leaves (memory : ByteArray) (window : Window) (call : EntityCall) (memory' : ByteArray) :
    Prop :=
  memory' = memory ∨ ∃ bytes, call = write bytes ∧
    window.position + bytes.size ≤ memory.size ∧
    memory' = Bytes.overlay memory window.position bytes

/-- Where a call leaves the cursor: where it was, inside the window, or inside the memory. -/
def Lands (memory : ByteArray) (window : Window) (cursor : Nat) : Prop :=
  cursor = window.cursor ∨ cursor < window.size ∨ window.base + cursor ≤ memory.size

/-- The call changes the cursor and what is written at it, and nothing else of the pool. -/
def OnMemory (entity : Entity) (key : Nat) (memory : ByteArray) (window : Window)
    (pool : Pool (MemoryDevice ⊕ ε)) (call : EntityCall) : Prop :=
  ∃ memory' cursor', stateAfter (call.perform entity pool) =
      pool.place entity (.inl ⟨key, memory'⟩) { window with cursor := cursor' } ∧
    call.Leaves memory window memory' ∧ Lands memory window cursor'

theorem onMemory_seek (h : pool.Opens entity (.inl ⟨key, memory⟩) window) (mode : SeekMode)
    (offset : Int64) : OnMemory entity key memory window pool (seek mode offset) := by
  rw [OnMemory, perform]
  rcases Pool.seek_cases h mode offset.toInt_lt with ⟨target, -, ⟨hlow, hhigh, -⟩, hseek⟩ | hseek
  · rw [hseek]
    exact ⟨memory, target.toNat, rfl, .inl rfl, .inr (.inl (by omega))⟩
  · rw [hseek]
    exact ⟨memory, window.cursor, h.place_self.symm, .inl rfl, .inl rfl⟩

theorem onMemory_read (h : pool.Opens entity (.inl ⟨key, memory⟩) window) (length : Nat) :
    OnMemory entity key memory window pool (read length) := by
  have hread := Pool.read_of_opens h length
  by_cases hlength : length = 0 ∨ window.size < length
  · rw [if_pos hlength] at hread
    rw [OnMemory, perform, bind_of_error hread]
    exact ⟨memory, window.cursor, h.place_self.symm, .inl rfl, .inl rfl⟩
  · rw [if_neg hlength] at hread
    simp only [Device.read, liftState, MemoryDevice.read] at hread
    by_cases hfits : window.position + length ≤ memory.size
    · rw [if_pos hfits] at hread
      have hstop : window.base + (window.cursor + length) ≤ memory.size :=
        Nat.add_assoc .. ▸ hfits
      rw [OnMemory, perform, bind_of_ok hread]
      exact ⟨memory, window.cursor + length, rfl, .inl rfl, .inr (.inr hstop)⟩
    · rw [if_neg hfits] at hread
      rw [OnMemory, perform, bind_of_error hread]
      exact ⟨memory, window.cursor, rfl, .inl rfl, .inl rfl⟩

/-- A write is made wherever it ends inside the memory. -/
theorem perform_write_inside (h : pool.Opens entity (.inl ⟨key, memory⟩) window)
    {bytes : ByteArray} (hfits : window.position + bytes.size ≤ memory.size) :
    (write bytes).perform entity pool = .ok () (pool.place entity
      (.inl ⟨key, Bytes.overlay memory window.position bytes⟩) (window.advance bytes.size)) := by
  have hwrite := Pool.write_of_opens h bytes
  simp only [Device.write, liftState, MemoryDevice.write, if_pos hfits] at hwrite
  rw [perform, bind_of_ok hwrite]
  rfl

theorem perform_write_outside (h : pool.Opens entity (.inl ⟨key, memory⟩) window)
    {bytes : ByteArray} (hfits : ¬ window.position + bytes.size ≤ memory.size) :
    (write bytes).perform entity pool = .error .addressOutOfBounds pool := by
  have hwrite := Pool.write_of_opens h bytes
  simp only [Device.write, liftState, MemoryDevice.write, if_neg hfits] at hwrite
  rw [perform, bind_of_error hwrite, h.place_self]

theorem onMemory_write (h : pool.Opens entity (.inl ⟨key, memory⟩) window) (bytes : ByteArray) :
    OnMemory entity key memory window pool (write bytes) := by
  by_cases hfits : window.position + bytes.size ≤ memory.size
  · have hstop : window.base + (window.cursor + bytes.size) ≤ memory.size :=
      Nat.add_assoc .. ▸ hfits
    rw [OnMemory, perform_write_inside h hfits]
    exact ⟨_, window.cursor + bytes.size, rfl, .inr ⟨bytes, rfl, hfits, rfl⟩, .inr (.inr hstop)⟩
  · rw [OnMemory, perform_write_outside h hfits]
    exact ⟨memory, window.cursor, h.place_self.symm, .inl rfl, .inl rfl⟩

/-- A call through an entity that is open on memory. -/
theorem onMemory_of_opens (h : pool.Opens entity (.inl ⟨key, memory⟩) window) (call : EntityCall) :
    OnMemory entity key memory window pool call := by
  cases call with
  | seek mode offset => exact onMemory_seek h mode offset
  | read length => exact onMemory_read h length
  | write bytes => exact onMemory_write h bytes

namespace Leaves

variable {memory' : ByteArray} {call : EntityCall} (h : call.Leaves memory window memory')
include h

theorem size_eq : memory'.size = memory.size := by
  rcases h with rfl | ⟨bytes, -, hfits, rfl⟩
  · rfl
  · exact Bytes.size_overlay hfits

/-- Writes begin inside the window or behind it. -/
theorem before {i : Nat} (hi : i < window.base) :
    Bytes.byteAt memory' i = Bytes.byteAt memory i := by
  rcases h with rfl | ⟨bytes, -, hfits, rfl⟩
  · rfl
  · have hstart : window.base ≤ window.position := Nat.le_add_right ..
    rw [Bytes.byteAt_overlay hfits, if_neg (by omega)]

omit [Device ε] in
theorem behind (hopen : pool.Opens entity (.inl ⟨key, memory⟩) window)
    (hfits : call.FitsWindow entity pool) {i : Nat} (hi : window.base + window.size ≤ i) :
    Bytes.byteAt memory' i = Bytes.byteAt memory i := by
  rcases h with rfl | ⟨bytes, rfl, hinside, rfl⟩
  · rfl
  · rw [FitsWindow, Pool.window_of_opens hopen] at hfits
    have hend : window.cursor + bytes.size ≤ window.size := hfits
    have hposition : window.position = window.base + window.cursor := rfl
    rw [Bytes.byteAt_overlay hinside, if_neg (by omega)]

end Leaves

/-- No memory has as many bytes as there are non-negative signed words, so no call takes the cursor
to a position that is not a word. -/
theorem Lands.addressed {cursor : Nat} (h : Lands memory window cursor)
    (hwindow : window.Addressed) (hmemory : memory.size < 0x8000000000000000) :
    ({ window with cursor } : Window).Addressed where
  size_le := hwindow.size_le
  cursor_lt := by
    have hsize := hwindow.size_le
    have hcursor := hwindow.cursor_lt
    have hwords : 0x8000000000000000 < UInt64.size := by decide
    show window.base + cursor < UInt64.size
    rcases h with rfl | hinside | hstop
    · exact hcursor
    · omega
    · omega

/-- A run through an entity that is open on memory leaves it open on what becomes of that memory,
by induction on the calls. Its position stays a word, no write begins before the window, and where
each of them ends inside of it, nothing behind the window is touched. -/
theorem run_memory (calls : List EntityCall)
    (h : pool.Opens entity (.inl ⟨key, memory⟩) window) (hwindow : window.Addressed)
    (hmemory : memory.size < 0x8000000000000000) :
    ∃ memory' cursor', (run entity calls pool).Opens entity (.inl ⟨key, memory'⟩)
        { window with cursor := cursor' } ∧
      ({ window with cursor := cursor' } : Window).Addressed ∧
      memory'.size = memory.size ∧
      (∀ i < window.base, Bytes.byteAt memory' i = Bytes.byteAt memory i) ∧
      (RunFits entity calls pool → ∀ i, window.base + window.size ≤ i →
        Bytes.byteAt memory' i = Bytes.byteAt memory i) := by
  induction calls generalizing pool memory window with
  | nil => exact ⟨memory, window.cursor, h, hwindow, rfl, fun _ _ => rfl, fun _ _ _ => rfl⟩
  | cons call calls ih =>
    obtain ⟨memory₁, cursor₁, hstate, hleaves, hlands⟩ := onMemory_of_opens h call
    have hopen : (stateAfter (call.perform entity pool)).Opens entity (.inl ⟨key, memory₁⟩)
        { window with cursor := cursor₁ } := by
      rw [hstate]
      exact Pool.opens_place (Pool.Binds.lt_length h)
    -- The rest of the run has a window that differs in its cursor alone.
    obtain ⟨memory', cursor', hrun, haddressed, hsize, hbefore, hbehind⟩ :=
      ih hopen (hlands.addressed hwindow hmemory) (hleaves.size_eq ▸ hmemory)
    refine ⟨memory', cursor', hrun, haddressed, hsize.trans hleaves.size_eq, fun i hi => ?_, ?_⟩
    · exact (hbefore i hi).trans (hleaves.before hi)
    · rintro ⟨hfits, hrest⟩ i hi
      exact (hbehind hrest i hi).trans (hleaves.behind h hfits hi)

/-- Where the memory goes on behind a window, one write at its start reaches the byte behind it. -/
theorem exists_write_behind {region : Region}
    (h : pool.Opens entity (.inl ⟨key, memory⟩) (.ofRegion region))
    (hshort : region.offset + region.length < memory.size) :
    ∃ bytes memory' window',
      (run entity [write bytes] pool).Opens entity (.inl ⟨key, memory'⟩) window' ∧
      Bytes.byteAt memory' (region.offset + region.length) ≠
        Bytes.byteAt memory (region.offset + region.length) := by
  -- One byte more than the window has, each of them unlike the byte behind it.
  let old := Bytes.byteAt memory (region.offset + region.length)
  let bytes := Bytes.fill (region.length + 1) (old + 1)
  have hsize : bytes.size = region.length + 1 := Bytes.size_fill ..
  have hfits : region.offset + bytes.size ≤ memory.size := by omega
  refine ⟨bytes, Bytes.overlay memory region.offset bytes,
    (Window.ofRegion region).advance bytes.size, ?_, ?_⟩
  · rw [run, List.foldl_cons, perform_write_inside h hfits]
    exact Pool.opens_place (Pool.Binds.lt_length h)
  · have hchanged : old + 1 ≠ old := by simp
    rw [Bytes.byteAt_overlay hfits, if_pos (by omega), Nat.add_sub_cancel_left, Bytes.byteAt_fill,
      if_pos (Nat.lt_succ_self _)]
    exact hchanged

/-- Through an entity that has been opened on memory, no call touches a byte before its window, and
none behind it as long as each write ends inside the window. Nothing else holds a write back: every
run leaves the bytes behind the window alone exactly when the memory has none there. The window is
one that ends by the last address, so that no position in a run is more than a 64-bit word. -/
theorem writes_confined_iff {region : Region}
    (h : pool.Opens entity (.inl ⟨key, memory⟩) (.ofRegion region))
    (hstart : region.offset < UInt64.size) (hend : region.offset + region.length ≤ UInt64.size)
    (hmemory : memory.size < 0x8000000000000000) :
    (∀ calls, ∃ memory' cursor', (run entity calls pool).Opens entity (.inl ⟨key, memory'⟩)
        ⟨region.offset, region.length, cursor'⟩ ∧
      region.offset + cursor' < UInt64.size ∧ memory'.size = memory.size ∧
      (∀ i < region.offset, Bytes.byteAt memory' i = Bytes.byteAt memory i) ∧
      (RunFits entity calls pool → ∀ i, region.offset + region.length ≤ i →
        Bytes.byteAt memory' i = Bytes.byteAt memory i)) ∧
    ((∀ calls memory' window', (run entity calls pool).Opens entity (.inl ⟨key, memory'⟩) window' →
        ∀ i, region.offset + region.length ≤ i → Bytes.byteAt memory' i = Bytes.byteAt memory i) ↔
      memory.size ≤ region.offset + region.length) := by
  have hrun (calls : List EntityCall) := run_memory calls h ⟨hend, hstart⟩ hmemory
  refine ⟨fun calls => ?_, fun hconfined => ?_, fun hwhole calls memory' window' hopen i hi => ?_⟩
  · obtain ⟨memory', cursor', hopen, haddressed, hrest⟩ := hrun calls
    exact ⟨memory', cursor', hopen, haddressed.cursor_lt, hrest⟩
  · refine Nat.not_lt.mp fun hshort => ?_
    obtain ⟨bytes, memory', window', hopen, hchanged⟩ := exists_write_behind h hshort
    exact hchanged (hconfined [write bytes] memory' window' hopen _ (Nat.le_refl _))
  · obtain ⟨memory₁, cursor₁, hopen₁, -, hsize, -⟩ := hrun calls
    have hsame := Pool.Binds.eq hopen hopen₁
    cases hsame
    rw [Bytes.byteAt, Bytes.byteAt, dif_neg (by omega), dif_neg (by omega)]

/-- Eight bytes of memory. -/
def sampleMemory : ByteArray :=
  Bytes.ofList [0x10, 0x11, 0x12, 0x13, 0x14, 0x15, 0x16, 0x17]

/-- A pool with a window of four of these bytes, from the second on. -/
def memoryPool : Pool (MemoryDevice ⊕ MemoryDevice) :=
  ((Ledger.start 1).run [.register .memory, .deviceOpen (.inl ⟨7, sampleMemory⟩),
    .openWindow 0 ⟨1, 4⟩]).pool

/-- A run whose writes end inside the window leaves the bytes next to it alone, although a read
takes the cursor past its end. -/
theorem writes_confined_iff_memoryPool :
    let calls : List EntityCall :=
      [.write (Bytes.ofList [0xa0, 0xa1]), .read 4, .seek .set 1, .write (Bytes.ofList [0xa2])]
    RunFits ⟨0, 7⟩ calls memoryPool ∧
    ∃ memory cursor, (run ⟨0, 7⟩ calls memoryPool).Opens ⟨0, 7⟩ (.inl ⟨7, memory⟩) ⟨1, 4, cursor⟩ ∧
      Bytes.byteAt memory 0 = 0x10 ∧ Bytes.byteAt memory 5 = 0x15 := by
  intro calls
  have hopen : memoryPool.Opens ⟨0, 7⟩ (.inl ⟨7, sampleMemory⟩) (.ofRegion ⟨1, 4⟩) := rfl
  have hfits : RunFits ⟨0, 7⟩ calls memoryPool :=
    ⟨show 0 + 2 ≤ 4 by decide, trivial, trivial, show 1 + 1 ≤ 4 by decide, trivial⟩
  obtain ⟨hruns, -⟩ := writes_confined_iff hopen (by decide) (by decide) (by decide)
  obtain ⟨memory, cursor, hrun, -, -, hbefore, hbehind⟩ := hruns calls
  exact ⟨hfits, memory, cursor, hrun, hbefore 0 (by decide), hbehind hfits 5 (by decide)⟩

/-- A write of five bytes through that window succeeds, and changes the byte behind it. -/
theorem write_escapes_window :
    memoryPool.Opens ⟨0, 7⟩ (.inl ⟨7, sampleMemory⟩) ⟨1, 4, 0⟩ ∧
    answerOf (Pool.write ⟨0, 7⟩ (Bytes.ofList [0xa0, 0xa1, 0xa2, 0xa3, 0xa4]) memoryPool) = .ok 5 ∧
    (run ⟨0, 7⟩ [write (Bytes.ofList [0xa0, 0xa1, 0xa2, 0xa3, 0xa4])] memoryPool).Opens ⟨0, 7⟩
      (.inl ⟨7, Bytes.ofList [0x10, 0xa0, 0xa1, 0xa2, 0xa3, 0xa4, 0x16, 0x17]⟩) ⟨1, 4, 5⟩ :=
  ⟨rfl, rfl, rfl⟩

end EntityCall

end NorFlash.Block
