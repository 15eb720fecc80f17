import NorFlash.Package
import NorFlash.Proofs.EntityStream
import NorFlash.Proofs.Guarded
import NorFlash.Proofs.ScratchRead
import NorFlash.Proofs.Tiling

/-!
The reads of the driver, of the device over it, of the pool and of a package, with every division,
difference and range checked. Whatever the bus answers and wherever a window lies, all of them
pass: the checks depend on values that the reads themselves have bounded before.
-/
namespace NorFlash

open Guarded (Passes)

namespace Geometry

variable (geometry : Geometry)

def locate? (position : Nat) : Option Location :=
  match geometry.wiring with
  | .stacked =>
    let half := geometry.size / 2
    if half ≤ position then (difference? position half).map (⟨true, ·⟩)
    else some ⟨false, position⟩
  | _ => some (geometry.locate position)

def readLimit? (position : Nat) : Option Nat := do
  let place ← geometry.locate? position
  let bank ← quotient? place.address geometry.bankSpan
  let bankLeft ← difference? (geometry.bankSpan * (bank + 1)) place.address
  if geometry.wiring = .stacked ∧ place.upper = false then
    let dieLeft ← difference? (geometry.size / 2) place.address
    return min bankLeft dieLeft
  else
    return bankLeft

theorem bankSpan_pos : 0 < geometry.bankSpan := by
  unfold bankSpan bankSize
  cases geometry.wiring <;> decide

theorem locate?_eq (position : Nat) :
    geometry.locate? position = some (geometry.locate position) := by
  unfold locate? locate
  cases hwiring : geometry.wiring with
  | single => rfl
  | parallel => rfl
  | stacked =>
    dsimp only
    by_cases hupper : geometry.size / 2 ≤ position
    · rw [if_pos hupper, if_pos hupper, difference?_of_le hupper]
      rfl
    · rw [if_neg hupper, if_neg hupper]

/-- On the lower of two stacked dies a position is below their border. -/
theorem lt_of_lower {position : Nat} (hwiring : geometry.wiring = .stacked)
    (hlower : (geometry.locate position).upper = false) :
    (geometry.locate position).address < geometry.size / 2 := by
  unfold locate at hlower ⊢
  rw [hwiring] at hlower ⊢
  dsimp only at hlower ⊢
  by_cases hupper : geometry.size / 2 ≤ position
  · rw [if_pos hupper] at hlower
    cases hlower
  · rw [if_neg hupper]
    exact Nat.lt_of_not_le hupper

theorem readLimit?_eq (position : Nat) :
    geometry.readLimit? position = some (geometry.readLimit position) := by
  have hspan := geometry.bankSpan_pos
  have hbank : (geometry.locate position).address ≤
      geometry.bankSpan * ((geometry.locate position).address / geometry.bankSpan + 1) :=
    Nat.le_of_lt (Nat.lt_mul_div_succ _ hspan)
  unfold readLimit? readLimit bankOf
  simp only [locate?_eq, quotient?_of_pos hspan, difference?_of_le hbank, Option.bind_eq_bind,
    Option.bind_some]
  by_cases hdie : geometry.wiring = .stacked ∧ (geometry.locate position).upper = false
  · rw [if_pos hdie, if_pos hdie,
      difference?_of_le (Nat.le_of_lt (geometry.lt_of_lower hdie.1 hdie.2))]
    rfl
  · rw [if_neg hdie, if_neg hdie]
    rfl

end Geometry

namespace Driver

variable {β : Type} [SpiBus β]

/-- Each piece goes to its place in a buffer of `length` bytes, of which the first ones have been
read. -/
def readPieces? (geometry : Geometry) (length : Nat) :
    List Piece → (done : ByteArray) → Guarded Error (Driver β) ByteArray
  | [], done => pure done
  | piece :: pieces, done => do
    let _ ← Guarded.demand (difference? length done.size)
    let _ ← Guarded.demand (geometry.readLimit? piece.position)
    let _ ← Guarded.demand (range? done.size (done.size + piece.length) length)
    match ← Guarded.lift (attempt (readPiece geometry piece)) with
    | .ok bytes => readPieces? geometry length pieces (done ++ bytes)
    | .error cause => if done.size = 0 then Guarded.lift (throw cause) else return done

def read? (offset length : Nat) : Guarded Error (Driver β) ByteArray := do
  let geometry ← Guarded.lift requireReady
  Guarded.lift (requireInside geometry offset length)
  readPieces? geometry length (Piece.tile geometry.readLimit offset length) .empty

/-- The read of the driver into a buffer that it is given. -/
def readInto? (address : Nat) : Guarded Error (ByteArray × Driver β) Nat :=
  Guarded.of fun
    | (buffer, driver) =>
      match (read? address buffer.size).run driver with
      | .ok (some bytes) driver => .ok (some bytes.size) (Bytes.overlay buffer 0 bytes, driver)
      | .ok none driver => .ok none (buffer, driver)
      | .error cause driver => .error cause (buffer, driver)

theorem size_of_readPiece {geometry : Geometry} {piece : Piece} {bytes : ByteArray}
    {driver after : Driver β}
    (h : attempt (readPiece geometry piece) driver = .ok (.ok bytes) after) :
    bytes.size = piece.length := by
  cases hread : readPiece geometry piece driver with
  | error cause failed =>
    rw [attempt_of_error hread] at h
    cases h
  | ok read between =>
    rw [attempt_of_ok hread] at h
    cases h
    obtain ⟨address, visited, -, hreceive⟩ := ok_of_bind hread
    obtain ⟨answer, received, -, hresized⟩ := ok_of_bind hreceive
    cases hresized
    exact Bytes.size_resize ..

/-- The pieces that are left tile what is left of the buffer, by induction on them. -/
theorem passes_readPieces (geometry : Geometry) {offset length : Nat} {pieces : List Piece}
    {done : ByteArray} (h : Tiles (offset + done.size) pieces (offset + length))
    (driver : Driver β) :
    Passes (readPieces? geometry length pieces done) (readPieces geometry pieces done) driver := by
  induction pieces generalizing done driver with
  | nil => exact .pure done driver
  | cons piece pieces ih =>
    obtain ⟨-, -, hrest⟩ := h
    have htotal := hrest.total
    apply Passes.demand (difference?_of_le (by omega))
    apply Passes.demand (geometry.readLimit?_eq piece.position)
    apply Passes.demand (range?_of_le (by omega) (by omega))
    apply Passes.bind (.lift _ driver)
    intro result after hresult
    cases result with
    | ok bytes =>
      have hsize := size_of_readPiece hresult
      apply ih
      rwa [ByteArray.size_append, hsize, ← Nat.add_assoc]
    | error cause => exact .ite (fun _ => .lift _ after) (fun _ => .pure done after)

theorem passes_read (offset length : Nat) (driver : Driver β) :
    Passes (read? offset length) (read offset length) driver := by
  apply Passes.bind (.lift _ driver)
  intro geometry ready _
  apply Passes.bind (.lift _ ready)
  intro _ inside _
  exact passes_readPieces geometry (Piece.tiles_tile ..) inside

theorem passes_readInto (address : Nat) (state : ByteArray × Driver β) :
    Passes (readInto? address) (Block.RawFlash.read address) state := by
  obtain ⟨buffer, driver⟩ := state
  have hpasses := passes_read address buffer.size driver
  cases hread : read address buffer.size driver with
  | ok bytes after =>
    have hplain : Block.RawFlash.read address (buffer, driver) =
        .ok bytes.size (Bytes.overlay buffer 0 bytes, after) := by
      simp only [Block.RawFlash.read, hread]
    exact .of_ok (by simp only [readInto?, Guarded.run_of, hpasses.ok hread]) hplain
  | error cause after =>
    have hplain : Block.RawFlash.read address (buffer, driver) = .error cause (buffer, after) := by
      simp only [Block.RawFlash.read, hread]
    exact .of_error (by simp only [readInto?, Guarded.run_of, hpasses.error hread]) hplain

end Driver

namespace Block

namespace FlashDevice

variable {ρ : Type} [RawFlash ρ]

section Checked

variable (raw? : (address : Nat) → Guarded Error (ByteArray × ρ) Nat)

/-- The raw read is given the first `request` bytes of the scratch buffer. -/
def rawRead? (address request : Nat) : Guarded Error (Scratch × ρ) Nat :=
  Guarded.of fun
    | (scratch, raw) =>
      match range? 0 request scratch.length with
      | none => .ok none (scratch, raw)
      | some _ =>
        match (raw? address).run (scratch.take request, raw) with
        | .ok count (buffer, raw) => .ok count (scratch.put (Bytes.resize buffer request), raw)
        | .error cause (buffer, raw) =>
          .error cause (scratch.put (Bytes.resize buffer request), raw)

/-- What was delivered is taken from the front of the scratch buffer. -/
def fetchOnce? (left : Nat) : Guarded Error (Window × FlashDevice ρ) ByteArray :=
  Guarded.of fun
    | (window, ⟨key, spec, scratch, raw⟩) =>
      let address := window.position
      let request := min left scratch.length
      if UInt32.size ≤ address then
        .error .deviceFailure (window, ⟨key, spec, scratch, raw⟩)
      else
        match (rawRead? raw? address request).run (scratch, raw) with
        | .error _ (scratch, raw) => .error .deviceFailure (window, ⟨key, spec, scratch, raw⟩)
        | .ok none (scratch, raw) => .ok none (window, ⟨key, spec, scratch, raw⟩)
        | .ok (some count) (scratch, raw) =>
          if 0 < count ∧ count ≤ request then
            .ok ((range? 0 count scratch.length).map fun _ => scratch.take count)
              (window.advance count, ⟨key, spec, scratch, raw⟩)
          else
            .error .deviceFailure (window, ⟨key, spec, scratch, raw⟩)

def fetchFrom? (left done : Nat) (buffer : ByteArray) :
    Guarded Error (Window × FlashDevice ρ) ByteArray := do
  if left = 0 then
    return buffer
  let bytes ← fetchOnce? raw? left
  if bytes.size = 0 then
    Guarded.lift (throw .deviceFailure)
  else
    let _ ← Guarded.demand (range? done (done + bytes.size) buffer.size)
    fetchFrom? (left - bytes.size) (done + bytes.size) (Bytes.overlay buffer done bytes)
termination_by left
decreasing_by omega

def read? (length : Nat) : Guarded Error (Window × FlashDevice ρ) ByteArray :=
  fetchFrom? raw? length 0 (Bytes.fill length 0)

end Checked

/-- What `fetchFrom` delivers, without the buffer that a failure leaves behind. -/
def fetched (left done : Nat) (buffer : ByteArray) :
    EStateM Error (Window × FlashDevice ρ) ByteArray
  | state =>
    match fetchFrom left done buffer state with
    | ((.ok _, buffer), state) => .ok buffer state
    | ((.error cause, _), state) => .error cause state

theorem read_eq_fetched (length : Nat) (state : Window × FlashDevice ρ) :
    read length state = fetched length 0 (Bytes.fill length 0) state := by
  rcases h : fetchFrom length 0 (Bytes.fill length 0) state with ⟨⟨cause | count, buffer⟩, after⟩
  · simp only [read, readInto, fetched, Bytes.size_fill, h]
  · simp only [read, readInto, fetched, Bytes.size_fill, h]

/-- A raw read does not change how long the scratch buffer is. -/
theorem length_of_rawRead {address request count : Nat} {state after : Scratch × ρ}
    (h : rawRead address request state = .ok count after) : after.1.length = state.1.length := by
  have hmake := RawCall.rawRead_eq_make address request state
  rw [h] at hmake
  split at hmake
  · obtain ⟨-, rfl⟩ := EStateM.Result.ok.inj hmake
    exact RawCall.length_make ..
  · cases hmake

theorem size_of_fetchOnce {left : Nat} {state after : Window × FlashDevice ρ} {bytes : ByteArray}
    (h : fetchOnce left state = .ok bytes after) : 0 < bytes.size ∧ bytes.size ≤ left := by
  obtain ⟨window, device⟩ := state
  rw [fetchOnce_eq] at h
  split at h
  · cases h
  · split at h
    case isFalse => cases h
    case isTrue hsound =>
      cases h
      rw [size_claimed_firstCall hsound]
      exact count_firstCall hsound

theorem fetched_of_ok {left done : Nat} {buffer bytes : ByteArray} (hleft : left ≠ 0)
    {state between : Window × FlashDevice ρ} (hfetch : fetchOnce left state = .ok bytes between) :
    fetched left done buffer state =
      fetched (left - bytes.size) (done + bytes.size) (Bytes.overlay buffer done bytes)
        between := by
  have hsize := (size_of_fetchOnce hfetch).1
  rw [fetched, fetched, fetchFrom, if_neg hleft, hfetch]
  dsimp only
  rw [if_neg (Nat.ne_of_gt hsize)]

theorem fetched_of_error {left done : Nat} {buffer : ByteArray} (hleft : left ≠ 0) {cause : Error}
    {state between : Window × FlashDevice ρ}
    (hfetch : fetchOnce left state = .error cause between) :
    fetched left done buffer state = .error cause between := by
  rw [fetched, fetchFrom, if_neg hleft, hfetch]

/-- A read that succeeds delivers what it was asked for. -/
theorem size_of_read {length : Nat} {bytes : ByteArray} {state after : Window × FlashDevice ρ}
    (h : read length state = .ok bytes after) : bytes.size = length := by
  obtain ⟨window, device⟩ := state
  have hfill : (Bytes.fill length 0).size = length := Bytes.size_fill ..
  obtain ⟨served, failed, hfetched⟩ :=
    fetchFrom_fetched length 0 (Bytes.fill length 0) window device (by omega)
  have hroom : 0 + (RawCall.joined served).size ≤ (Bytes.fill length 0).size := by
    rw [hfetched.size_joined]
    rcases hfetched.outcome with ⟨-, -, htotal⟩ | ⟨-, htotal, -⟩ <;> omega
  have hbuffer := (congrArg ByteArray.size hfetched.buffer_eq).trans (Bytes.size_overlay hroom)
  rw [read_eq_fetched, fetched] at h
  generalize fetchFrom length 0 (Bytes.fill length 0) (window, device) = result at h hbuffer
  obtain ⟨⟨outcome, buffer⟩, state⟩ := result
  cases outcome with
  | error cause => cases h
  | ok count =>
    cases h
    exact hbuffer.trans hfill

section Passes

variable {raw? : (address : Nat) → Guarded Error (ByteArray × ρ) Nat}
  (hraw : ∀ address state, Passes (raw? address) (RawFlash.read address) state)
include hraw

theorem passes_rawRead {address request : Nat} {state : Scratch × ρ}
    (hroom : request ≤ state.1.length) :
    Passes (rawRead? raw? address request) (rawRead address request) state := by
  obtain ⟨scratch, raw⟩ := state
  have hpasses := hraw address (scratch.take request, raw)
  have hrange := range?_of_le (Nat.zero_le request) hroom
  cases hread : RawFlash.read address (scratch.take request, raw) with
  | ok count after =>
    have hplain : rawRead address request (scratch, raw) =
        .ok count (scratch.put (Bytes.resize after.1 request), after.2) := by
      simp only [rawRead, hread]
    exact .of_ok (by simp only [rawRead?, Guarded.run_of, hrange, hpasses.ok hread]) hplain
  | error cause after =>
    have hplain : rawRead address request (scratch, raw) =
        .error cause (scratch.put (Bytes.resize after.1 request), after.2) := by
      simp only [rawRead, hread]
    exact .of_error (by simp only [rawRead?, Guarded.run_of, hrange, hpasses.error hread]) hplain

theorem passes_fetchOnce (left : Nat) (state : Window × FlashDevice ρ) :
    Passes (fetchOnce? raw? left) (fetchOnce left) state := by
  obtain ⟨window, key, spec, scratch, raw⟩ := state
  have hroom : min left scratch.length ≤ scratch.length := Nat.min_le_right ..
  have hpasses := @passes_rawRead _ _ _ hraw window.position _ (scratch, raw) hroom
  unfold Passes
  change (fetchOnce? raw? left).run _ = EStateM.map some (fetchOnce left) _
  rw [EStateM.map, fetchOnce?, Guarded.run_of, fetchOnce]
  by_cases hhigh : UInt32.size ≤ window.position
  · simp only [hhigh, ↓reduceIte]
  simp only [hhigh, ↓reduceIte]
  cases hread : rawRead window.position (min left scratch.length) (scratch, raw) with
  | error cause after => simp only [hpasses.error hread]
  | ok count after =>
    have hlength : after.1.length = scratch.length := length_of_rawRead hread
    simp only [hpasses.ok hread]
    by_cases hcount : 0 < count ∧ count ≤ min left scratch.length
    · have hrange := @range?_of_le 0 count after.1.length (Nat.zero_le count) (by omega)
      simp only [if_pos hcount, hrange, Option.map_some]
    · simp only [if_neg hcount]

/-- What is fetched has room behind what is there already, by induction on the bytes that are
left. -/
theorem passes_fetchFrom {left done : Nat} {buffer : ByteArray} (hroom : done + left = buffer.size)
    (state : Window × FlashDevice ρ) :
    Passes (fetchFrom? raw? left done buffer) (fetched left done buffer) state := by
  induction left using Nat.strongRecOn generalizing done buffer state with
  | _ left ih =>
    have hfetch := passes_fetchOnce hraw left state
    rw [fetchFrom?]
    by_cases hzero : left = 0
    · subst hzero
      exact .of_ok rfl (by rw [fetched, fetchFrom_zero])
    rw [if_neg hzero]
    cases hplain : fetchOnce left state with
    | error cause between =>
      exact .of_error (Guarded.run_bind_of_error (hfetch.error hplain))
        (fetched_of_error hzero hplain)
    | ok bytes between =>
      obtain ⟨hpos, hle⟩ := size_of_fetchOnce hplain
      have hsize : (Bytes.overlay buffer done bytes).size = buffer.size :=
        Bytes.size_overlay (by omega)
      have hrest := ih (left - bytes.size) (by omega) (show done + bytes.size +
        (left - bytes.size) = (Bytes.overlay buffer done bytes).size by omega) between
      apply Passes.resume _ (Guarded.run_bind_of_ok (hfetch.ok hplain)) (fetched_of_ok hzero hplain)
      rw [if_neg (Nat.ne_of_gt hpos)]
      exact .demand (range?_of_le (by omega) (by omega)) hrest

theorem passes_read (length : Nat) (state : Window × FlashDevice ρ) :
    Passes (read? raw? length) (read length) state := by
  have hfill : (Bytes.fill length 0).size = length := Bytes.size_fill ..
  have hfetch := passes_fetchFrom hraw (show 0 + length = (Bytes.fill length 0).size by omega) state
  exact hfetch.resume rfl (read_eq_fetched length state)

end Passes

end FlashDevice

/-- Devices whose reads deliver as many bytes as they were asked for, or fail. -/
def Device.ReadsAll (δ : Type) [Device δ] : Prop :=
  ∀ {length : Nat} {bytes : ByteArray} {state after : Window × δ},
    Device.read length state = .ok bytes after → bytes.size = length

theorem FlashDevice.readsAll {ρ : Type} [RawFlash ρ] : Device.ReadsAll (FlashDevice ρ) :=
  FlashDevice.size_of_read

namespace Pool

variable {δ α : Type}

/-- Runs a guarded operation on the window and device of an open entity. -/
def onEntity? (entity : Entity) (action : Guarded Error (Window × δ) α) :
    Guarded Error (Pool δ) α :=
  OptionT.mk (onEntity entity action.run)

theorem passes_onEntity {guarded : Guarded Error (Window × δ) α}
    {action : EStateM Error (Window × δ) α} (h : ∀ state, Passes guarded action state)
    (entity : Entity) (pool : Pool δ) :
    Passes (onEntity? entity guarded) (onEntity entity action) pool := by
  by_cases hopen : pool.IsOpen entity
  · obtain ⟨device, window, hopen⟩ := hopen
    have hguarded := onEntity_of_opens hopen guarded.run
    have hplain := onEntity_of_opens hopen action
    cases haction : action (window, device) with
    | ok value after =>
      rw [(h _).ok haction] at hguarded
      rw [haction] at hplain
      exact .of_ok hguarded hplain
    | error cause after =>
      rw [(h _).error haction] at hguarded
      rw [haction] at hplain
      exact .of_error hguarded hplain
  · exact .of_error (onEntity_of_not_isOpen hopen _) (onEntity_of_not_isOpen hopen _)

def read? (device? : Nat → Guarded Error (Window × δ) ByteArray) (entity : Entity)
    (length : Nat) : Guarded Error (Pool δ) ByteArray :=
  onEntity? entity <| Guarded.of fun
    | (window, device) =>
      if length = 0 ∨ window.size < length then
        .error .invalidArgument (window, device)
      else
        (device? length).run (window, device)

variable [Device δ]

/-- The count of bound slots goes down by one. -/
def deviceClose? (handle : Handle) : Guarded Error (Pool δ) δ :=
  Guarded.of fun pool =>
    match deviceClose handle pool with
    | .ok device after => .ok ((difference? pool.size 1).map fun _ => device) after
    | .error cause after => .error cause after

theorem passes_deviceClose (handle : Handle) {pool : Pool δ} (hbound : 0 < pool.size) :
    Passes (deviceClose? handle) (deviceClose handle) pool := by
  have hcount := difference?_of_le hbound
  cases hclose : deviceClose handle pool with
  | ok device after =>
    exact .of_ok (by simp only [deviceClose?, Guarded.run_of, hclose, hcount, Option.map_some])
      hclose
  | error cause after =>
    exact .of_error (by simp only [deviceClose?, Guarded.run_of, hclose]) hclose

theorem passes_read {device? : Nat → Guarded Error (Window × δ) ByteArray}
    (h : ∀ length state, Passes (device? length) (Device.read length) state) (entity : Entity)
    (length : Nat) (pool : Pool δ) :
    Passes (read? device? entity length) (read entity length) pool := by
  apply passes_onEntity
  rintro ⟨window, device⟩
  by_cases hlength : length = 0 ∨ window.size < length
  · exact .of_error (if_pos hlength) (if_pos hlength)
  · exact (h length (window, device)).resume (if_neg hlength) (if_neg hlength)

/-- What is read from a pool is as long as was asked for. -/
theorem size_of_read (hall : Device.ReadsAll δ) {entity : Entity} {length : Nat}
    {bytes : ByteArray} {pool after : Pool δ} (h : read entity length pool = .ok bytes after) :
    bytes.size = length := by
  by_cases hopen : pool.IsOpen entity
  · obtain ⟨device, window, hopen⟩ := hopen
    rw [read_of_opens hopen] at h
    split at h
    · cases h
    · split at h
      · next value window' device' hread =>
        cases h
        exact hall hread
      · cases h
  · cases (onEntity_of_not_isOpen hopen _).symm.trans h

end Pool

namespace ByteSource

variable {σ : Type} [ByteSource σ] (source? : Nat → Guarded Error σ ByteArray)

/-- The bytes that were read are cut off the front of the buffer for those that are left. -/
def readExactFrom? (left : Nat) (done : ByteArray) : Guarded Error σ (Option ByteArray) := do
  if left = 0 then
    return some done
  let bytes ← source? left
  if bytes.size = 0 then
    return none
  else
    let _ ← Guarded.demand (range? bytes.size left left)
    readExactFrom? (left - bytes.size) (done ++ bytes)
termination_by left
decreasing_by omega

def readExact? (length : Nat) : Guarded Error σ (Option ByteArray) :=
  readExactFrom? source? length .empty

variable {source?}
  (hsource : ∀ length source, Passes (source? length) (ByteSource.read length) source)
  (hsize : ∀ {length : Nat} {bytes : ByteArray} {source after : σ},
    ByteSource.read length source = .ok bytes after → bytes.size ≤ length)
include hsource hsize

theorem passes_readExactFrom (left : Nat) (done : ByteArray) (source : σ) :
    Passes (readExactFrom? source? left done) (readExactFrom left done) source := by
  induction left using Nat.strongRecOn generalizing done source with
  | _ left ih =>
    have hread := hsource left source
    rw [readExactFrom?]
    by_cases hzero : left = 0
    · subst hzero
      exact .of_ok rfl (readExactFrom_zero done source)
    rw [if_neg hzero]
    cases hplain : ByteSource.read left source with
    | error cause after =>
      exact .of_error (Guarded.run_bind_of_error (hread.error hplain))
        (by rw [readExactFrom, if_neg hzero, hplain])
    | ok bytes after =>
      have hle := hsize hplain
      have hrest := readExactFrom_of_read hzero hplain done
      by_cases hend : bytes.size = 0
      · rw [if_pos hend] at hrest
        exact .of_ok ((Guarded.run_bind_of_ok (hread.ok hplain)).trans (by rw [if_pos hend]; rfl))
          hrest
      · rw [if_neg hend] at hrest
        apply Passes.resume _ (Guarded.run_bind_of_ok (hread.ok hplain)) hrest
        rw [if_neg hend]
        exact .demand (range?_of_le hle (Nat.le_refl left)) (ih _ (by omega) _ after)

theorem passes_readExact (length : Nat) (source : σ) :
    Passes (readExact? source? length) (readExact length) source :=
  passes_readExactFrom hsource hsize length .empty source

end ByteSource

namespace EntityReader

variable {δ α : Type}

def onPool? (action : Entity → Guarded Error (Pool δ) α) : Guarded Error (EntityReader δ) α :=
  OptionT.mk (onPool fun entity => (action entity).run)

theorem passes_onPool {guarded : Entity → Guarded Error (Pool δ) α}
    {action : Entity → EStateM Error (Pool δ) α}
    (h : ∀ entity pool, Passes (guarded entity) (action entity) pool) (reader : EntityReader δ) :
    Passes (onPool? guarded) (onPool action) reader := by
  obtain ⟨pool, entity⟩ := reader
  cases haction : action entity pool with
  | ok value after =>
    have hplain : onPool action ⟨pool, entity⟩ = .ok value ⟨after, entity⟩ := by
      simp only [onPool, haction]
    exact .of_ok (by simp only [onPool?, OptionT.run_mk, onPool, (h entity pool).ok haction]) hplain
  | error cause after =>
    have hplain : onPool action ⟨pool, entity⟩ = .error cause ⟨after, entity⟩ := by
      simp only [onPool, haction]
    exact .of_error (by simp only [onPool?, OptionT.run_mk, onPool, (h entity pool).error haction])
      hplain

/-- The buffer is cut off where the window ends. -/
def read? (device? : Nat → Guarded Error (Window × δ) ByteArray) (length : Nat) :
    Guarded Error (EntityReader δ) ByteArray := do
  let window ← Guarded.lift (onPool Pool.window)
  let taken := min length (window.size - window.cursor)
  if taken = 0 then
    return .empty
  let _ ← Guarded.demand (range? 0 taken length)
  onPool? (Pool.read? device? · taken)

variable [Device δ]

theorem passes_read {device? : Nat → Guarded Error (Window × δ) ByteArray}
    (h : ∀ length state, Passes (device? length) (Device.read length) state) (length : Nat)
    (reader : EntityReader δ) :
    Passes (read? device? length) (ByteSource.read length) reader := by
  apply Passes.bind (.lift _ reader)
  intro window after _
  apply Passes.ite
  · intro _
    exact .pure _ after
  · intro _
    apply Passes.demand (range?_of_le (Nat.zero_le _) (Nat.min_le_left ..))
    exact passes_onPool (fun entity pool => Pool.passes_read h entity _ pool) after

/-- A reader delivers at most the bytes asked for. -/
theorem size_of_read (hall : Device.ReadsAll δ) {length : Nat} {bytes : ByteArray}
    {reader after : EntityReader δ} (h : ByteSource.read length reader = .ok bytes after) :
    bytes.size ≤ length := by
  obtain ⟨window, between, -, hrest⟩ := ok_of_bind h
  dsimp only at hrest
  by_cases hnone : min length (window.size - window.cursor) = 0
  · rw [if_pos hnone] at hrest
    cases hrest
    exact Nat.zero_le _
  · obtain ⟨pool, entity⟩ := between
    rw [if_neg hnone, onPool] at hrest
    split at hrest
    · next value pool' hread =>
      cases hrest
      rw [Pool.size_of_read hall hread]
      exact Nat.min_le_left ..
    · cases hrest

end EntityReader

end Block

namespace Package

open Block (ByteSource)

variable {σ : Type} [ByteSource σ] (source? : Nat → Guarded Error σ ByteArray)

def readRecord? (size : Nat) : Guarded Error σ (List UInt8) := do
  match ← ByteSource.readExact? source? size with
  | some bytes => return Bytes.toList bytes
  | none => Guarded.lift (throw .invalidImage)

def readEntries? (length : Nat) : (room : Nat) → List Entry → Guarded Error σ (List Entry)
  | room, entries => do
    let record ← readRecord? source? entrySize
    let entry := Entry.ofBytes record
    if entry.isLast then
      return entries.reverse
    if length < entry.offset + entry.size then
      Guarded.lift (throw .invalidImage)
    else
      match room with
      | 0 => Guarded.lift (throw .noSpace)
      | room + 1 => readEntries? length room (entry :: entries)

def readContents? (length : Nat) : Guarded Error σ (List Entry) := do
  let _ ← Guarded.lift (ByteSource.seek (.start 0))
  let header ← readRecord? source? headerSize
  if littleEndian (header.take 4) ≠ magic then
    Guarded.lift (throw .invalidImage)
  else
    readEntries? source? length maxEntries []

variable {source?}
  (hsource : ∀ length source, Passes (source? length) (ByteSource.read length) source)
  (hsize : ∀ {length : Nat} {bytes : ByteArray} {source after : σ},
    ByteSource.read length source = .ok bytes after → bytes.size ≤ length)
include hsource hsize

theorem passes_readRecord (size : Nat) (source : σ) :
    Passes (readRecord? source? size) (readRecord size) source := by
  apply Passes.bind (ByteSource.passes_readExact hsource hsize size source)
  intro record after _
  cases record with
  | some bytes => exact .pure _ after
  | none => exact .lift _ after

theorem passes_readEntries (length room : Nat) (entries : List Entry) (source : σ) :
    Passes (readEntries? source? length room entries) (readEntries length room entries) source := by
  induction room using Nat.strongRecOn generalizing entries source with
  | _ room ih =>
    unfold readEntries? readEntries
    apply Passes.bind (passes_readRecord hsource hsize entrySize source)
    intro record after _
    apply Passes.ite
    · intro _
      exact .pure _ after
    · intro _
      apply Passes.ite
      · intro _
        exact .lift _ after
      · intro _
        cases room with
        | zero => exact .lift _ after
        | succ room => exact ih room (Nat.lt_succ_self room) _ after

theorem passes_readContents (length : Nat) (source : σ) :
    Passes (readContents? source? length) (readContents length) source := by
  apply Passes.bind (.lift _ source)
  intro _ started _
  apply Passes.bind (passes_readRecord hsource hsize headerSize started)
  intro header after _
  apply Passes.ite
  · intro _
    exact .lift _ after
  · intro _
    exact passes_readEntries hsource hsize length maxEntries [] after

end Package

end NorFlash
