import NorFlash.Bench.ScriptedFlash
import NorFlash.Proofs.EntityStream
import NorFlash.Proofs.ScratchRead

/-!
An open entity as a position in the bytes of its window, whichever kind of device holds them. A
plain array of bytes with a position is a source of bytes as well, and a reader of an entity
answers as that one does.
-/
namespace NorFlash.Block

/-- A call on a source of bytes. -/
inductive SourceCall where
  | read (length : Nat)
  | seek (target : SeekFrom)

namespace SourceCall

variable {σ τ : Type} [ByteSource σ] [ByteSource τ]

/-- What a call brings: bytes, or a position. -/
def perform : SourceCall → EStateM Error σ (ByteArray ⊕ Nat)
  | read length => do return .inl (← ByteSource.read length)
  | seek target => do return .inr (← ByteSource.seek target)

/-- The answers to calls made one after the other. -/
def answers : List SourceCall → σ → List (Except Error (ByteArray ⊕ Nat))
  | [], _ => []
  | call :: calls, source =>
    answerOf (call.perform source) :: answers calls (stateAfter (call.perform source))

/-- The source after these calls. -/
def finish (calls : List SourceCall) (source : σ) : σ :=
  calls.foldl (fun source call => stateAfter (call.perform source)) source

/-- Sources that are alike answer each call alike, and stay alike. -/
def Preserves (alike : σ → τ → Prop) : Prop :=
  ∀ (call : SourceCall) (a : σ) (b : τ), alike a b →
    answerOf (call.perform a) = answerOf (call.perform b) ∧
      alike (stateAfter (call.perform a)) (stateAfter (call.perform b))

theorem perform_read_of_ok {n : Nat} {a a' : σ} {bytes : ByteArray}
    (h : ByteSource.read n a = .ok bytes a') : (read n).perform a = .ok (.inl bytes) a' := by
  rw [perform, bind_of_ok h]
  rfl

theorem perform_seek_of_ok {target : SeekFrom} {a a' : σ} {position : Nat}
    (h : ByteSource.seek target a = .ok position a') :
    (seek target).perform a = .ok (.inr position) a' := by
  rw [perform, bind_of_ok h]
  rfl

theorem perform_seek_of_error {target : SeekFrom} {a a' : σ} {cause : Error}
    (h : ByteSource.seek target a = .error cause a') :
    (seek target).perform a = .error cause a' := by
  rw [perform, bind_of_error h]

/-- By induction on the calls. -/
theorem Preserves.run {alike : σ → τ → Prop} (h : Preserves alike) (calls : List SourceCall)
    {a : σ} {b : τ} (halike : alike a b) :
    answers calls a = answers calls b ∧ alike (finish calls a) (finish calls b) := by
  induction calls generalizing a b with
  | nil => exact ⟨rfl, halike⟩
  | cons call calls ih =>
    obtain ⟨hanswer, hafter⟩ := h call a b halike
    obtain ⟨hanswers, hfinish⟩ := ih hafter
    exact ⟨by rw [answers, answers, hanswer, hanswers], hfinish⟩

end SourceCall

/-- The position that a seek aims at, as an unbounded number. -/
def SeekFrom.place (size position : Nat) : SeekFrom → Int
  | start n => n
  | current n => position + n
  | fromEnd n => size + n

/-- The position that a seek aims at lies inside the bytes. -/
def SeekFrom.Inside (size position : Nat) (target : SeekFrom) : Prop :=
  0 ≤ target.place size position ∧ target.place size position < size

instance (size position : Nat) (target : SeekFrom) : Decidable (target.Inside size position) :=
  inferInstanceAs (Decidable (_ ∧ _))

/-- A position in some bytes, which may lie behind their end. -/
structure ByteCursor where
  content : ByteArray
  position : Nat

namespace ByteCursor

/-- Gives the bytes asked for that are left. -/
def read (length : Nat) : EStateM Error ByteCursor ByteArray
  | ⟨content, position⟩ =>
    let bytes := Bytes.slice content position length
    .ok bytes ⟨content, position + bytes.size⟩

/-- Moves to a position inside the bytes. -/
def seek (target : SeekFrom) : EStateM Error ByteCursor Nat
  | ⟨content, position⟩ =>
    let place := (target.place content.size position).toNat
    if target.Inside content.size position then
      .ok place ⟨content, place⟩
    else
      .error .invalidArgument ⟨content, position⟩

instance : ByteSource ByteCursor where
  read := read
  seek := seek

variable {cursor : ByteCursor} {target : SeekFrom}

theorem perform_seek_inside (h : target.Inside cursor.content.size cursor.position) :
    (SourceCall.seek target).perform cursor =
      .ok (.inr (target.place cursor.content.size cursor.position).toNat)
        ⟨cursor.content, (target.place cursor.content.size cursor.position).toNat⟩ :=
  SourceCall.perform_seek_of_ok (if_pos h)

theorem perform_seek_outside (h : ¬ target.Inside cursor.content.size cursor.position) :
    (SourceCall.seek target).perform cursor = .error .invalidArgument cursor :=
  SourceCall.perform_seek_of_error (if_neg h)

@[simp] theorem content_perform (call : SourceCall) :
    (stateAfter (call.perform cursor)).content = cursor.content := by
  cases call with
  | read n => rfl
  | seek target =>
    by_cases hplace : target.Inside cursor.content.size cursor.position
    · rw [perform_seek_inside hplace]
      rfl
    · rw [perform_seek_outside hplace]
      rfl

/-- Whatever is delivered is a piece of the bytes, by induction on the calls. -/
theorem slice_of_mem_answers {calls : List SourceCall} {bytes : ByteArray}
    (h : .ok (.inl bytes) ∈ SourceCall.answers calls cursor) :
    ∃ place n, bytes = Bytes.slice cursor.content place n := by
  induction calls generalizing cursor with
  | nil => cases h
  | cons call calls ih =>
    rw [SourceCall.answers, List.mem_cons] at h
    rcases h with hfirst | hlater
    · cases call with
      | read n =>
        cases hfirst
        exact ⟨cursor.position, n, rfl⟩
      | seek target =>
        by_cases hplace : target.Inside cursor.content.size cursor.position
        · rw [perform_seek_inside hplace] at hfirst
          cases hfirst
        · rw [perform_seek_outside hplace] at hfirst
          cases hfirst
    · obtain ⟨place, n, hbytes⟩ := ih hlater
      rw [content_perform] at hbytes
      exact ⟨place, n, hbytes⟩

end ByteCursor

namespace EntityReader

section Seek

variable {δ : Type} {pool : Pool δ} {entity : Entity} {device : δ} {window : Window}
  (hindex : entity.index < pool.slots.length)
include hindex

theorem onPool_seek_opened {position : Int} (hsigned : position < 0x8000000000000000) :
    onPool (Pool.seek · .set position) (opened pool entity device window) =
      if 0 ≤ position ∧ position < window.size then
        .ok () (opened pool entity device { window with cursor := position.toNat })
      else
        .error .invalidArgument (opened pool entity device window) := by
  have hopen := @Pool.opens_place δ pool entity device window hindex
  rw [onPool, opened]
  dsimp only
  by_cases hinside : 0 ≤ position ∧ position < window.size
  · rw [Pool.seek_of_admits hopen rfl ⟨hinside.1, hinside.2, hsigned⟩, if_pos hinside,
      Pool.place_place]
    rfl
  · have hrefused : ∀ target, SeekMode.target window position .set = some target →
        ¬ window.Admits target := by
      rintro target htarget ⟨hlow, hhigh, -⟩
      obtain rfl : position = target := Option.some.inj htarget
      exact hinside ⟨hlow, hhigh⟩
    rw [Pool.seek_of_not_admits hopen hsigned hrefused, if_neg hinside]

/-- A seek to a position, once that has been found. -/
theorem moveTo_opened {position : Int} (hsigned : position < 0x8000000000000000) :
    (do
      onPool (Pool.seek · .set position)
      return position.toNat) (opened pool entity device window) =
      if 0 ≤ position ∧ position < window.size then
        .ok position.toNat (opened pool entity device { window with cursor := position.toNat })
      else
        .error .invalidArgument (opened pool entity device window) := by
  have hseek := @onPool_seek_opened δ pool entity device window hindex position hsigned
  by_cases hinside : 0 ≤ position ∧ position < window.size
  · rw [if_pos hinside] at hseek ⊢
    rw [bind_of_ok hseek]
    rfl
  · rw [if_neg hinside] at hseek ⊢
    rw [bind_of_error hseek]

variable [Device δ]

/-- A seek in a window whose positions are signed 64-bit numbers moves to the position that it
aims at, or is refused when that lies outside the window. -/
theorem seek_eq (hsize : window.size < 0x8000000000000000)
    (hcursor : window.cursor < 0x8000000000000000) (target : SeekFrom) :
    ByteSource.seek target (opened pool entity device window) =
      if target.Inside window.size window.cursor then
        .ok (target.place window.size window.cursor).toNat (opened pool entity device
          { window with cursor := (target.place window.size window.cursor).toNat })
      else
        .error .invalidArgument (opened pool entity device window) := by
  refine (bind_of_ok (window_opened hindex) _).trans ?_
  cases target with
  | start n =>
    dsimp only [SeekFrom.Inside, SeekFrom.place]
    by_cases hsigned : n < 0x8000000000000000
    · rw [if_pos hsigned]
      exact moveTo_opened hindex (by omega)
    · rw [if_neg hsigned]
      exact (if_neg (by omega)).symm
  | current n =>
    dsimp only [SeekFrom.Inside, SeekFrom.place]
    rw [Pool.signed, if_pos hcursor, Pool.checkedAdd_eq]
    split
    · exact moveTo_opened hindex (by omega)
    · exact (if_neg (by omega)).symm
  | fromEnd n =>
    dsimp only [SeekFrom.Inside, SeekFrom.place]
    rw [Pool.signed, if_pos hsize, Pool.checkedAdd_eq]
    split
    · exact moveTo_opened hindex (by omega)
    · exact (if_neg (by omega)).symm

end Seek

end EntityReader

variable {ρ : Type} [RawFlash ρ]

/-- A device that holds the bytes of a memory: the memory itself, or flash with a scratch buffer
over raw flash that delivers them from 32-bit addresses. -/
inductive Backs (memory : ByteArray) : MemoryDevice ⊕ FlashDevice ρ → Prop where
  | memory (key : Nat) : Backs memory (.inl ⟨key, memory⟩)
  | flash {device : FlashDevice ρ} {ready : ρ → Prop}
    (delivers : FlashDevice.Delivers memory ready) (isReady : ready device.raw)
    (hasRoom : 0 < device.scratch.length) (isLow : memory.size ≤ UInt32.size) :
    Backs memory (.inr device)

/-- Devices of either kind read as the memory whose bytes they hold. -/
theorem readsAs_backs (memory : ByteArray) :
    Device.ReadsAs memory (Backs memory : MemoryDevice ⊕ FlashDevice ρ → Prop) := by
  intro device hbacks n window hin
  cases hbacks with
  | memory key =>
    obtain ⟨_, hread, rfl⟩ :=
      @MemoryDevice.readsAs (FlashDevice ρ) _ ⟨key, memory⟩ _ rfl n window hin
    exact ⟨_, hread, .memory key⟩
  | flash delivers isReady hasRoom isLow =>
    obtain ⟨device', hread, -, -, hlength, hready⟩ := delivers.read isReady hasRoom hin isLow
    exact ⟨.inr device', Device.read_inr hread, .flash delivers hready (by omega) isLow⟩

namespace EntityReader

variable {memory : ByteArray} {pool : Pool (MemoryDevice ⊕ FlashDevice ρ)} {entity : Entity}
  {window : Window}

/-- A reader stands where a cursor in the bytes of its window does. -/
def Follows (memory : ByteArray) (pool : Pool (MemoryDevice ⊕ FlashDevice ρ)) (entity : Entity)
    (window : Window) (reader : EntityReader (MemoryDevice ⊕ FlashDevice ρ))
    (cursor : ByteCursor) : Prop :=
  cursor.content = Bytes.slice memory window.base window.size ∧
    cursor.position < 0x8000000000000000 ∧
    ∃ device, Backs memory device ∧
      reader = opened pool entity device { window with cursor := cursor.position }

/-- One call on a reader, beside the same call on the cursor that it follows. -/
theorem preserves_follows (hindex : entity.index < pool.slots.length)
    (hinside : window.base + window.size ≤ memory.size)
    (hsize : window.size < 0x8000000000000000) :
    SourceCall.Preserves (Follows memory pool entity window) := by
  rintro call reader ⟨content, position⟩ ⟨hcontent, hposition, device, hbacks, hreader⟩
  dsimp only at hcontent hposition hreader
  have hfull : content.size = window.size := by
    rw [hcontent, Bytes.size_slice]
    omega
  cases call with
  | read n =>
    have hstreams := streams_of_readsAs hindex (readsAs_backs memory) hinside
    rw [← hcontent] at hstreams
    obtain ⟨after, hread, hafter⟩ := hstreams.read n ⟨device, hbacks, hreader⟩
    have hcursor : ByteSource.read n (⟨content, position⟩ : ByteCursor) =
        .ok (Bytes.slice content position n)
          ⟨content, position + (Bytes.slice content position n).size⟩ := rfl
    -- A read ends within the window, or where it began if that is behind it.
    have hstop : position + (Bytes.slice content position n).size < 0x8000000000000000 := by
      rw [Bytes.size_slice]
      omega
    rw [SourceCall.perform_read_of_ok hread, SourceCall.perform_read_of_ok hcursor]
    exact ⟨rfl, hcontent, hstop, hafter⟩
  | seek target =>
    have hseek := @seek_eq _ pool entity device { window with cursor := position } hindex _ hsize
      hposition target
    rw [← hreader] at hseek
    dsimp only at hseek
    by_cases hplace : target.Inside window.size position
    · rw [if_pos hplace] at hseek
      rw [SourceCall.perform_seek_of_ok hseek, ByteCursor.perform_seek_inside (by rwa [hfull])]
      dsimp only
      rw [hfull]
      have hlt := hplace.2
      exact ⟨rfl, hcontent, by dsimp only [stateAfter]; omega, device, hbacks, rfl⟩
    · rw [if_neg hplace] at hseek
      rw [SourceCall.perform_seek_of_error hseek, ByteCursor.perform_seek_outside (by rwa [hfull])]
      exact ⟨rfl, hcontent, hposition, device, hbacks, hreader⟩

/-- What a reader of an entity delivers is what its window holds, through whatever calls: it
answers as a cursor in the bytes of the window, delivers no byte from outside of it, and stays a
reader of the same entity at the position of that cursor. Readers of the same bytes on devices of
different kinds answer alike. -/
theorem reader_answers_as_cursor
    {reader : EntityReader (MemoryDevice ⊕ FlashDevice ρ)} {device : MemoryDevice ⊕ FlashDevice ρ}
    (hopen : reader.pool.Opens reader.entity device window) (hbacks : Backs memory device)
    (hinside : window.base + window.size ≤ memory.size)
    (hsize : window.size < 0x8000000000000000) (hcursor : window.cursor < 0x8000000000000000)
    (calls : List SourceCall) :
    let cursor : ByteCursor := ⟨Bytes.slice memory window.base window.size, window.cursor⟩
    SourceCall.answers calls reader = SourceCall.answers calls cursor ∧
    (∃ device', Backs memory device' ∧ SourceCall.finish calls reader =
      opened reader.pool reader.entity device'
        { window with cursor := (SourceCall.finish calls cursor).position }) ∧
    (∀ bytes, .ok (.inl bytes) ∈ SourceCall.answers calls reader → ∃ start,
      window.base ≤ start ∧ start + bytes.size ≤ window.base + window.size ∧
      bytes = Bytes.slice memory start bytes.size) ∧
    ∀ {τ : Type} [RawFlash τ] {other : EntityReader (MemoryDevice ⊕ FlashDevice τ)}
      {device' : MemoryDevice ⊕ FlashDevice τ},
      other.pool.Opens other.entity device' window → Backs memory device' →
      SourceCall.answers calls other = SourceCall.answers calls reader := by
  intro cursor
  have hrun {τ : Type} [RawFlash τ] {other : EntityReader (MemoryDevice ⊕ FlashDevice τ)}
      {device' : MemoryDevice ⊕ FlashDevice τ}
      (hopen : other.pool.Opens other.entity device' window) (hbacks : Backs memory device') :
      SourceCall.answers calls other = SourceCall.answers calls cursor ∧
        Follows memory other.pool other.entity window (SourceCall.finish calls other)
          (SourceCall.finish calls cursor) :=
    (preserves_follows hopen.lt_length hinside hsize).run calls
      ⟨rfl, hcursor, device', hbacks, eq_opened hopen⟩
  obtain ⟨hanswers, -, -, hfinish⟩ := hrun hopen hbacks
  refine ⟨hanswers, hfinish, ?_, fun hopen' hbacks' => ?_⟩
  · intro bytes hbytes
    rw [hanswers] at hbytes
    obtain ⟨place, n, rfl⟩ := ByteCursor.slice_of_mem_answers hbytes
    rw [Bytes.slice_slice]
    by_cases hplace : place < window.size
    · have hcut : (Bytes.slice memory (window.base + place) (min n (window.size - place))).size =
          min n (window.size - place) := by
        rw [Bytes.size_slice]
        omega
      exact ⟨window.base + place, by omega, by omega, by rw [hcut]⟩
    · have hnothing : min n (window.size - place) = 0 := by omega
      rw [hnothing, Bytes.slice_zero]
      exact ⟨window.base, Nat.le_refl _, by simp, by simp⟩
  · rw [hanswers, (hrun hopen' hbacks').1]

/-- Scripted flash that gives one byte at a time delivers its pattern. -/
theorem delivers_pattern : FlashDevice.Delivers (Bench.pattern 0 8)
    fun raw : Bench.ScriptedFlash => raw.script = [] ∧ raw.short = some 1 := by
  rintro ⟨_, _, log⟩ ⟨rfl, rfl⟩ address buffer hsome hin
  have hone : min buffer.size 1 = 1 := Nat.min_eq_right hsome
  have hbyte : ∀ a < 8, Bench.pattern a 1 = Bytes.slice (Bench.pattern 0 8) a 1 := by decide
  have hlow : address + buffer.size ≤ 8 := hin
  have hfilled := Bytes.slice_overlay buffer (Bench.pattern address 1)
  rw [show (Bench.pattern address 1).size = 1 from rfl, hbyte address (by omega)] at hfilled
  refine ⟨1, Bytes.overlay buffer 0 (Bytes.slice (Bench.pattern 0 8) address 1),
    ⟨[], some 1, log.push ⟨address, buffer.size, false⟩⟩, ?_, ⟨Nat.one_pos, hsome⟩, hfilled,
    rfl, rfl⟩
  simp only [RawFlash.read, Bench.ScriptedFlash.read, Option.getD_some, hone,
    Nat.min_eq_left hsome]
  rw [hbyte address (by omega)]

/-- That flash below a scratch buffer of two bytes. -/
def patternFlash : FlashDevice Bench.ScriptedFlash :=
  ⟨9, ⟨⟨0, 2⟩, 1⟩, (2 : Nat), { short := some 1 }⟩

/-- A reader of five bytes of the pattern on a device, with its cursor behind them. -/
def patternReader (device : MemoryDevice ⊕ FlashDevice Bench.ScriptedFlash) :
    EntityReader (MemoryDevice ⊕ FlashDevice Bench.ScriptedFlash) :=
  ⟨⟨[none, some ⟨9, device, some ⟨2, 5, 7⟩⟩], [.flash, .memory], 1⟩, ⟨1, 9⟩⟩

/-- The same answers from that flash and from memory. -/
theorem reader_answers_as_cursor_pattern :
    let calls : List SourceCall :=
      [.read 3, .seek (.fromEnd (-2)), .read 9, .seek (.current 0), .seek (.start 1), .read 2]
    let expected : List (Except Error (ByteArray ⊕ Nat)) :=
      [.ok (.inl .empty), .ok (.inr 3), .ok (.inl (Bench.pattern 5 2)), .error .invalidArgument,
        .ok (.inr 1), .ok (.inl (Bench.pattern 3 2))]
    SourceCall.answers calls (patternReader (.inr patternFlash)) = expected ∧
      SourceCall.answers calls (patternReader (.inl ⟨9, Bench.pattern 0 8⟩)) = expected := by
  intro calls expected
  have hbacks : Backs (Bench.pattern 0 8) (.inr patternFlash) :=
    .flash delivers_pattern ⟨rfl, rfl⟩ (by decide) (by decide)
  obtain ⟨hflash, -, -, hsame⟩ := @reader_answers_as_cursor _ _ _ ⟨2, 5, 7⟩
    (patternReader (.inr patternFlash)) _ rfl hbacks (by decide) (by decide) (by decide) calls
  have hmemory := @hsame Bench.ScriptedFlash _ (patternReader (.inl ⟨9, Bench.pattern 0 8⟩)) _ rfl
    (.memory 9)
  have hcursor : SourceCall.answers calls
      (⟨Bytes.slice (Bench.pattern 0 8) 2 5, 7⟩ : ByteCursor) = expected := rfl
  exact ⟨hflash.trans hcursor, hmemory.trans (hflash.trans hcursor)⟩

end EntityReader

end NorFlash.Block
