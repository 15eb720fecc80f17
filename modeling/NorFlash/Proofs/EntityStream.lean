import NorFlash.Block.Memory
import NorFlash.Block.Reader
import NorFlash.Proofs.PoolAccess
import NorFlash.Proofs.WriteCycle

/-!
An open entity over memory as a stream of the bytes in its window. Whatever reads it sees the
content of the window alone: not the device around the window, nor the other slots of the pool.
-/
namespace NorFlash.Block

/-- A source that gives these bytes, in states that are known by their position. A read gives all
of the bytes asked for that are left. -/
structure ByteSource.Streams {σ : Type} [ByteSource σ] (content : ByteArray)
    (place : Nat → σ → Prop) : Prop where
  read (n : Nat) {position : Nat} {source : σ} : place position source →
    ∃ after, ByteSource.read n source = .ok (Bytes.slice content position n) after ∧
      place (position + (Bytes.slice content position n).size) after
  seek {target : Nat} (inside : target < content.size) (signed : target < 0x8000000000000000)
    {position : Nat} {source : σ} : place position source →
    ∃ after, ByteSource.seek (.start target) source = .ok target after ∧ place target after

namespace ByteSource

variable {σ : Type} [ByteSource σ]

theorem readExactFrom_zero (done : ByteArray) (source : σ) :
    readExactFrom 0 done source = .ok (some done) source := by
  rw [readExactFrom, if_pos rfl]

theorem readExactFrom_of_read {left : Nat} (hleft : left ≠ 0) {source after : σ}
    {bytes : ByteArray} (hread : ByteSource.read left source = .ok bytes after)
    (done : ByteArray) :
    readExactFrom left done source =
      if bytes.size = 0 then .ok none after
      else readExactFrom (left - bytes.size) (done ++ bytes) after := by
  rw [readExactFrom, if_neg hleft, hread]

namespace Streams

variable {content : ByteArray} {place : Nat → σ → Prop} (h : Streams content place)
  {position : Nat} {source : σ}
include h

/-- Bytes that are all there come with the first read. -/
theorem readExact_inside (hplace : place position source) {length : Nat}
    (hin : position + length ≤ content.size) :
    ∃ after, readExact length source = .ok (some (Bytes.slice content position length)) after ∧
      place (position + length) after := by
  by_cases hzero : length = 0
  · subst hzero
    rw [Bytes.slice_zero]
    exact ⟨source, readExactFrom_zero .empty source, hplace⟩
  · obtain ⟨after, hread, hafter⟩ := h.read length hplace
    have hsize : (Bytes.slice content position length).size = length := by
      rw [Bytes.size_slice]
      omega
    rw [hsize] at hafter
    refine ⟨after, ?_, hafter⟩
    rw [readExact, readExactFrom_of_read hzero hread, hsize, if_neg hzero, Nat.sub_self,
      readExactFrom_zero, ByteArray.empty_append]

/-- Where the source ends, a read gives nothing. -/
theorem readExactFrom_end (hplace : place content.size source) {left : Nat} (hleft : left ≠ 0)
    (done : ByteArray) : ∃ after, readExactFrom left done source = .ok none after := by
  obtain ⟨after, hread, -⟩ := h.read left hplace
  have hnothing : (Bytes.slice content content.size left).size = 0 := by
    rw [Bytes.size_slice]
    omega
  exact ⟨after, by rw [readExactFrom_of_read hleft hread, if_pos hnothing]⟩

/-- Bytes that are cut off are not given at all. -/
theorem readExact_cutOff (hplace : place position source) (hstart : position ≤ content.size)
    {length : Nat} (hcut : content.size < position + length) :
    ∃ after, readExact length source = .ok none after := by
  by_cases hend : position = content.size
  · subst hend
    exact h.readExactFrom_end hplace (by omega) .empty
  · obtain ⟨between, hread, hbetween⟩ := h.read length hplace
    have hsize : (Bytes.slice content position length).size = content.size - position := by
      rw [Bytes.size_slice]
      omega
    have hreached : position + (content.size - position) = content.size := by omega
    rw [hsize, hreached] at hbetween
    obtain ⟨after, hrest⟩ := h.readExactFrom_end hbetween
      (show length - (content.size - position) ≠ 0 by omega)
      (.empty ++ Bytes.slice content position length)
    refine ⟨after, ?_⟩
    rw [readExact, readExactFrom_of_read (by omega) hread, hsize, if_neg (by omega), hrest]

end Streams

end ByteSource

/-- A device that reads as a memory does, in states that it does not leave. -/
def Device.ReadsAs {δ : Type} [Device δ] (memory : ByteArray) (ready : δ → Prop) : Prop :=
  ∀ device, ready device → ∀ (n : Nat) (window : Window), window.position + n ≤ memory.size →
    ∃ device', Device.read n (window, device) =
      .ok (Bytes.slice memory window.position n) (window.advance n, device') ∧ ready device'

/-- A device of the first type serves a read as it does on its own. -/
theorem Device.read_inl {δ ε : Type} [Device δ] [Device ε] {n : Nat} {window window' : Window}
    {device device' : δ} {bytes : ByteArray}
    (h : Device.read n (window, device) = .ok bytes (window', device')) :
    Device.read n (window, (.inl device : δ ⊕ ε)) = .ok bytes (window', .inl device') := by
  simp only [Device.read, liftState]
  rw [h]

theorem Device.read_inr {δ ε : Type} [Device δ] [Device ε] {n : Nat} {window window' : Window}
    {device device' : ε} {bytes : ByteArray}
    (h : Device.read n (window, device) = .ok bytes (window', device')) :
    Device.read n (window, (.inr device : δ ⊕ ε)) = .ok bytes (window', .inr device') := by
  simp only [Device.read, liftState]
  rw [h]

theorem MemoryDevice.readsAs {ε : Type} [Device ε] (device : MemoryDevice) :
    Device.ReadsAs device.memory fun state : MemoryDevice ⊕ ε => state = .inl device := by
  rintro _ rfl n window hin
  exact ⟨.inl device, Device.read_inl (if_pos hin), rfl⟩

namespace EntityReader

variable {δ : Type}

/-- A reader of an entity that is open on a device of its pool. -/
def opened (pool : Pool δ) (entity : Entity) (device : δ) (window : Window) : EntityReader δ :=
  ⟨pool.place entity device window, entity⟩

theorem eq_opened {reader : EntityReader δ} {device : δ} {window : Window}
    (h : reader.pool.slots[reader.entity.index]? =
      some (some ⟨reader.entity.key, device, some window⟩)) :
    reader = opened reader.pool reader.entity device window := by
  obtain ⟨hindex, hslot⟩ := List.getElem?_eq_some_iff.mp h
  rw [opened, Pool.place, Pool.put, ← hslot, List.set_getElem_self hindex]

section Operations

variable {pool : Pool δ} {entity : Entity} (hindex : entity.index < pool.slots.length)
  {device device' : δ} {window window' : Window}
include hindex

theorem onEntity_opened {α : Type} {action : EStateM Error (Window × δ) α} {value : α}
    (h : action (window, device) = .ok value (window', device')) :
    onPool (fun entity => Pool.onEntity entity action)
        (opened pool entity device window) =
      .ok value (opened pool entity device' window') := by
  rw [onPool, opened, Pool.onEntity_place hindex h]
  rfl

theorem window_opened :
    onPool Pool.window (opened pool entity device window) =
      .ok window (opened pool entity device window) :=
  onEntity_opened hindex rfl

variable [Device δ]

/-- A read of as many bytes as the window has left goes to the device. -/
theorem read_opened {n : Nat} {bytes : ByteArray} (hsome : min n (window.size - window.cursor) ≠ 0)
    (h : Device.read (min n (window.size - window.cursor)) (window, device) =
      .ok bytes (window', device')) :
    ByteSource.read n (opened pool entity device window) =
      .ok bytes (opened pool entity device' window') := by
  refine (bind_of_ok (window_opened hindex) _).trans ?_
  rw [if_neg hsome]
  refine onEntity_opened hindex ?_
  dsimp only
  rw [if_neg (by omega)]
  exact h

/-- A read at the end of the window gives nothing and moves nothing. -/
theorem read_opened_end {n : Nat} (hnone : min n (window.size - window.cursor) = 0) :
    ByteSource.read n (opened pool entity device window) =
      .ok .empty (opened pool entity device window) := by
  refine (bind_of_ok (window_opened hindex) _).trans ?_
  rw [if_pos hnone]
  rfl

theorem seek_opened {target : Nat} (hinside : target < window.size)
    (hsigned : target < 0x8000000000000000) :
    ByteSource.seek (.start target) (opened pool entity device window) =
      .ok target (opened pool entity device { window with cursor := target }) := by
  have hmove : onPool (fun entity => Pool.seek entity .set (target : Int))
      (opened pool entity device window) =
        .ok () (opened pool entity device { window with cursor := target }) := by
    refine onEntity_opened hindex ?_
    dsimp only
    rw [if_neg (by omega)]
    rfl
  refine (bind_of_ok (window_opened hindex) _).trans ?_
  dsimp only
  rw [if_pos hsigned]
  exact bind_of_ok hmove _

end Operations

/-- An entity that is open on a device that reads as a memory, through a window that lies inside
it, streams the bytes of the window from any position. -/
theorem streams_of_readsAs [Device δ] {pool : Pool δ} {entity : Entity}
    (hindex : entity.index < pool.slots.length) {memory : ByteArray} {ready : δ → Prop}
    (hreads : Device.ReadsAs memory ready) {window : Window}
    (hinside : window.base + window.size ≤ memory.size) :
    ByteSource.Streams (Bytes.slice memory window.base window.size) fun position reader =>
      ∃ device, ready device ∧
        reader = opened pool entity device { window with cursor := position } where
  read n := by
    rintro position _ ⟨device, hready, rfl⟩
    rw [Bytes.slice_slice]
    by_cases hnone : min n (window.size - position) = 0
    · rw [hnone, Bytes.slice_zero]
      exact ⟨_, read_opened_end hindex hnone, device, hready, rfl⟩
    · have hfits : window.base + position + min n (window.size - position) ≤ memory.size := by
        omega
      have hsize : (Bytes.slice memory (window.base + position)
          (min n (window.size - position))).size = min n (window.size - position) := by
        rw [Bytes.size_slice]
        omega
      obtain ⟨device', hread, hready'⟩ := hreads device hready (min n (window.size - position))
        { window with cursor := position } hfits
      rw [hsize]
      exact ⟨_, read_opened hindex hnone hread, device', hready', rfl⟩
  seek := by
    rintro target inside signed position _ ⟨device, hready, rfl⟩
    have hsize : target < window.size := by
      rw [Bytes.size_slice] at inside
      omega
    exact ⟨_, seek_opened hindex hsize signed, device, hready, rfl⟩

theorem streams_opened {ε : Type} [Device ε] {pool : Pool (MemoryDevice ⊕ ε)} {entity : Entity}
    (hindex : entity.index < pool.slots.length) {device : MemoryDevice} {window : Window}
    (hinside : window.base + window.size ≤ device.memory.size) :
    ByteSource.Streams (Bytes.slice device.memory window.base window.size)
      fun position reader => reader = opened pool entity (.inl device)
        { window with cursor := position } := by
  simpa only [exists_eq_left] using streams_of_readsAs hindex device.readsAs hinside

end EntityReader

end NorFlash.Block
