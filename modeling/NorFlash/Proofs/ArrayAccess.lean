import NorFlash.Driver.Array
import NorFlash.Proofs.Rewrites
import NorFlash.Proofs.Routing

/-!
Erasing, programming and reading through an attuned driver. A write goes through its pieces in
order; when the waits of its kind run out it stops behind the first piece, which has nevertheless
taken effect. A read always comes to its end.
-/
namespace NorFlash.Driver

open Emulation (Chip)

section Pieces

variable {β : Type} {invariant : Driver β → Prop} {f : Nat → UInt8 → UInt8} {patient : Prop}
  [Decidable patient]

/-- The pieces of a range, each of which rewrites its own bytes and then waits. What `fits` is to
be rewritten fits again without its first piece. -/
theorem forM_tile (step : Piece → Action β Unit) (limit : Nat → Nat) (fits : Nat → Nat → Prop)
    (memory : Driver β → ByteArray)
    (hnext : ∀ position length, fits position length → length ≠ 0 →
      fits (position + min length (max 1 (limit position)))
        (length - min length (max 1 (limit position))))
    (hstep : ∀ position length d, fits position length → length ≠ 0 → invariant d →
      ∃ d', step ⟨position, min length (max 1 (limit position))⟩ d = finish patient d' ∧
        invariant d' ∧ Rewrites f position (position + min length (max 1 (limit position)))
          (memory d) (memory d'))
    (position length : Nat) (d : Driver β) (hfits : fits position length) (hd : invariant d) :
    ∃ d' done, (Piece.tile limit position length).forM step d =
        finish (length = 0 ∨ patient) d' ∧ invariant d' ∧ done ≤ length ∧
      (patient → done = length) ∧
      Rewrites f position (position + done) (memory d) (memory d') := by
  -- on the length, since each piece shortens what is left by an amount of its own
  induction length using Nat.strongRecOn generalizing position d with
  | _ length ih =>
    by_cases hzero : length = 0
    · subst hzero
      have hdone : finish (0 = 0 ∨ patient) d = .ok () d := finish_of (.inl rfl) d
      rw [Piece.tile_zero]
      exact ⟨d, 0, hdone.symm, hd, Nat.le_refl _, fun _ => rfl, .refl ..⟩
    · rw [Piece.tile_of_ne_zero _ _ hzero]
      let n := min length (max 1 (limit position))
      have hn : 0 < n ∧ n ≤ length := by omega
      obtain ⟨d₁, hfirst, hd₁, hrewrites⟩ := hstep position length d hfits hzero hd
      by_cases hpatient : patient
      · obtain ⟨d', done, hrest, hd', hdone, hall, hrewrites'⟩ :=
          ih (length - n) (by omega) (position + n) d₁ (hnext position length hfits hzero) hd₁
        have hdone := hall hpatient
        have hends (m : Nat) : finish (m = 0 ∨ patient) d' = .ok () d' :=
          finish_of (.inr hpatient) d'
        rw [finish_of hpatient] at hfirst
        refine ⟨d', length, (bind_of_ok hfirst _).trans ((hrest.trans (hends _)).trans
          (hends _).symm), hd', Nat.le_refl _, fun _ => rfl, ?_⟩
        have hend : position + n + done = position + length := by omega
        rw [hend] at hrewrites'
        exact hrewrites.trans hrewrites' (by omega) (by omega)
      · rw [finish_of_not hpatient] at hfirst
        have hends : finish (length = 0 ∨ patient) d₁ = .error .busyTimeout d₁ :=
          finish_of_not (by simp [hzero, hpatient]) d₁
        exact ⟨d₁, n, (bind_of_error hfirst _).trans hends.symm, hd₁, hn.2,
          fun h => absurd h hpatient, hrewrites⟩

theorem erasePieces_eq_forM [SpiBus β] (g : Geometry) (pieces : List Piece) :
    (erasePieces g pieces : Action β Unit) = pieces.forM (erasePiece g) := by
  induction pieces with
  | nil => rfl
  | cons piece pieces ih =>
    rw [erasePieces, ih]
    rfl

theorem programPieces_eq_forM [SpiBus β] (g : Geometry) (offset : Nat) (data : ByteArray)
    (pieces : List Piece) :
    (programPieces g offset data pieces : Action β Unit) =
      pieces.forM (programPiece g offset data) := by
  induction pieces with
  | nil => rfl
  | cons piece pieces ih =>
    rw [programPieces, ih]
    rfl

end Pieces

variable {g : Geometry} {settings : FlashSettings} {busyPolls : Nat} {d : Driver Chip}

/-- An array write of either kind keeps driver and part attuned. -/
theorem Attuned.alter (h : Attuned g settings busyPolls d) {change : ByteArray → ByteArray}
    (hsize : (change d.bus.memory).size = d.bus.memory.size) {checks : Nat}
    (hchecks : min (Poll.attempts settings.programTimeout)
      (Poll.attempts settings.eraseTimeout) ≤ checks) :
    Attuned g settings busyPolls ⟨(d.bus.altered change).polled checks, d.state⟩ where
  rest := (h.rest.altered change).polled checks
  scanned := h.scanned
  layout := h.layout
  chosen := h.chosen
  unlocked := h.unlocked
  polls := h.polls
  busy_le := by
    change d.bus.busyPolls - checks ≤ _
    rw [h.polls, FlashSettings.leftover]
    omega
  memory := hsize.trans h.memory
  page := h.page
  span := h.span
  routed := by
    cases h.routed with
    | banked register bank writes current width threeByte =>
      exact .banked register bank writes current width threeByte
    | wide bank width fourByte => exact .wide bank width fourByte
    | small bank width threeByte first size_le => exact .small bank width threeByte first size_le

section Visited

variable {chip : Chip} {state : DriverState} {position : Nat}
  (hd : Attuned g settings busyPolls ⟨chip, state⟩) (hreach : chip.Reaches g.width position)
  (hvisit : visit g position d = .ok position ⟨chip, state⟩)
include hd hreach hvisit

theorem erasePiece_of_visit (hg : g.Plain) (haligned : position % g.eraseSize = 0)
    (hin : position + g.eraseSize ≤ g.size) (length : Nat) :
    ∃ change, erasePiece g ⟨position, length⟩ d =
        finish (busyPolls < Poll.attempts settings.eraseTimeout)
          ⟨(chip.altered change).polled (Poll.attempts settings.eraseTimeout), state⟩ ∧
      Rewrites (fun _ _ => 0xff) position (position + g.eraseSize) chip.memory
        (change chip.memory) := by
  have hwrite := write_erase hd.rest state hreach hg.erases
  rw [hd.polls, hd.chosen, hd.span] at hwrite
  exact ⟨_, (bind_of_ok hvisit _).trans hwrite,
    Chip.rewrites_eraseUnit hg.eraseSize_pos haligned (by rw [hd.memory]; exact hin)⟩

theorem programPiece_of_visit {offset length : Nat} {data : ByteArray} (hlength : length ≠ 0)
    (hpage : length ≤ max 1 (g.pageSize - position % g.pageSize)) (hoffset : offset ≤ position)
    (hdata : position - offset + length ≤ data.size) (hin : position + length ≤ g.size) :
    ∃ change, programPiece g offset data ⟨position, length⟩ d =
        finish (busyPolls < Poll.attempts settings.programTimeout)
          ⟨(chip.altered change).polled (Poll.attempts settings.programTimeout), state⟩ ∧
      Rewrites (fun i byte => byte &&& Bytes.byteAt data (i - offset)) position
        (position + length) chip.memory (change chip.memory) := by
  let payload := Bytes.slice data (position - offset) length
  have hsize : payload.size = length := by
    rw [Bytes.size_slice]
    omega
  have hwrite := write_program hd.rest state hreach g.programMode
    (show payload.size ≠ 0 by rwa [hsize])
  have hrewrites := @Chip.rewrites_program g.pageSize position payload chip.memory
    (by rwa [hsize]) (by rwa [hsize, hd.memory])
  rw [hd.polls, hd.chosen, hd.page] at hwrite
  refine ⟨_, (bind_of_ok hvisit _).trans hwrite, ?_⟩
  rw [← hsize]
  refine hrewrites.congr fun i byte hi hi' => ?_
  have hplace : position - offset + (i - position) = i - offset := by omega
  rw [Bytes.byteAt_slice, if_pos (by omega), hplace]

end Visited

section Access

variable (h : Attuned g settings busyPolls d) (hg : g.Plain)
  (hsettle : settings.BanksSettle busyPolls)
include h hg hsettle

theorem erasePiece_eq {position : Nat} (haligned : position % g.eraseSize = 0)
    (hin : position + g.eraseSize ≤ g.size) (length : Nat) :
    ∃ d', erasePiece g ⟨position, length⟩ d =
        finish (busyPolls < Poll.attempts settings.eraseTimeout) d' ∧
      Attuned g settings busyPolls d' ∧
      Rewrites (fun _ _ => 0xff) position (position + g.eraseSize) d.bus.memory d'.bus.memory := by
  have hpos := hg.eraseSize_pos
  obtain ⟨⟨chip, state⟩, hvisit, hd, hmemory, hreach⟩ :=
    visit_ok h hg hsettle (show position < g.size by omega)
  obtain ⟨change, herase, hrewrites⟩ :=
    erasePiece_of_visit hd hreach hvisit hg haligned hin length
  refine ⟨_, herase, hd.alter hrewrites.size (Nat.min_le_right ..), ?_⟩
  rw [← hmemory]
  exact hrewrites

theorem programPiece_eq {offset position length : Nat} {data : ByteArray} (hlength : length ≠ 0)
    (hpage : length ≤ max 1 (g.pageSize - position % g.pageSize)) (hoffset : offset ≤ position)
    (hdata : position - offset + length ≤ data.size) (hin : position + length ≤ g.size) :
    ∃ d', programPiece g offset data ⟨position, length⟩ d =
        finish (busyPolls < Poll.attempts settings.programTimeout) d' ∧
      Attuned g settings busyPolls d' ∧
      Rewrites (fun i byte => byte &&& Bytes.byteAt data (i - offset)) position
        (position + length) d.bus.memory d'.bus.memory := by
  obtain ⟨⟨chip, state⟩, hvisit, hd, hmemory, hreach⟩ :=
    visit_ok h hg hsettle (show position < g.size by omega)
  obtain ⟨change, hprogram, hrewrites⟩ :=
    programPiece_of_visit hd hreach hvisit hlength hpage hoffset hdata hin
  refine ⟨_, hprogram, hd.alter hrewrites.size (Nat.min_le_left ..), ?_⟩
  rw [← hmemory]
  exact hrewrites

theorem readPiece_eq {position length : Nat} (hin : position + length ≤ g.size)
    (hlength : length ≠ 0) :
    ∃ d', readPiece g ⟨position, length⟩ d =
        .ok (Bytes.slice d.bus.memory position length) d' ∧
      Attuned g settings busyPolls d' ∧ d'.bus.memory = d.bus.memory := by
  obtain ⟨⟨chip, state⟩, hvisit, hd, hmemory, hreach⟩ :=
    visit_ok h hg hsettle (show position < g.size by omega)
  have hreceive := receive_read hd.rest.quiet state g.readMode hreach
    (show position + length ≤ chip.memory.size by rw [hd.memory]; exact hin)
  have hwhole : Bytes.resize (Bytes.slice chip.memory position length) length =
      Bytes.slice chip.memory position length := by
    have hsize : (Bytes.slice chip.memory position length).size = length := by
      rw [Bytes.size_slice, hd.memory]
      omega
    have hresize := Bytes.resize_self (Bytes.slice chip.memory position length)
    rwa [hsize] at hresize
  refine ⟨⟨chip, state⟩, (bind_of_ok hvisit _).trans ((bind_of_ok hreceive _).trans ?_), hd,
    hmemory⟩
  rw [hwhole]
  exact congrArg (fun memory => EStateM.Result.ok (Bytes.slice memory position length) _) hmemory

end Access

section Requests

variable (h : Attuned g settings busyPolls d)
include h

theorem requireReady_eq : requireReady d = .ok g d := by
  refine (bind_of_ok (getState_eq d) _).trans ?_
  rw [h.scanned, h.layout]
  rfl

theorem requireUnlocked_eq (offset length : Nat) : requireUnlocked offset length d = .ok () d := by
  refine (bind_of_ok (getState_eq d) _).trans ?_
  rw [h.unlocked]
  rfl

omit h in
theorem requireInside_of_le {β : Type} (d : Driver β) {offset length : Nat}
    (hin : offset + length ≤ g.size) : requireInside g offset length d = .ok () d := by
  rw [requireInside, Geometry.contains, if_pos (decide_eq_true hin)]
  rfl

omit h in
theorem requireInside_of_lt {β : Type} (d : Driver β) {offset length : Nat}
    (hout : g.size < offset + length) :
    requireInside g offset length d = .error .addressOutOfBounds d := by
  rw [requireInside, Geometry.contains, if_neg (by simpa using hout)]
  rfl

/-- A write that is refused before its first piece changes nothing. -/
theorem Attuned.refused {x : Action Chip Unit} {cause : Error} (hx : x d = .error cause d)
    (f : Nat → UInt8 → UInt8) (offset length : Nat) :
    ∃ d' done, stateAfter (x d) = d' ∧ Attuned g settings busyPolls d' ∧ done ≤ length ∧
      Rewrites f offset (offset + done) d.bus.memory d'.bus.memory := by
  refine ⟨d, 0, ?_, h, Nat.zero_le _, .refl ..⟩
  rw [hx]
  rfl

/-- A program whose range is inside the part goes on to its pieces. -/
theorem program_eq_pieces {offset : Nat} {data : ByteArray} (hin : offset + data.size ≤ g.size) :
    program offset data d =
      (Piece.tile (g.programLimit none) offset data.size).forM (programPiece g offset data) d := by
  have hlimit : (fun driver : Driver Chip =>
      let limit := SpiBus.maxWrite driver.bus
      (EStateM.Result.ok limit driver : EStateM.Result Error (Driver Chip) (Option Nat))) d =
        .ok none d := rfl
  refine (bind_of_ok (requireReady_eq h) _).trans ?_
  refine (bind_of_ok (requireInside_of_le d hin) _).trans ?_
  refine (bind_of_ok (requireUnlocked_eq h ..) _).trans ?_
  refine (bind_of_ok hlimit _).trans ?_
  rw [if_neg (by simp), programPieces_eq_forM]

/-- An aligned erase whose range is inside the part goes on to its pieces. -/
theorem erase_eq_pieces {offset length : Nat} (hoffset : offset % g.eraseSize = 0)
    (hlength : length % g.eraseSize = 0) (hin : offset + length ≤ g.size) :
    erase offset length d =
      (Piece.tile (fun _ => g.eraseSize) offset length).forM (erasePiece g) d := by
  refine (bind_of_ok (requireReady_eq h) _).trans ?_
  rw [if_neg (by simp [hoffset, hlength])]
  refine (bind_of_ok (requireInside_of_le d hin) _).trans ?_
  refine (bind_of_ok (requireUnlocked_eq h ..) _).trans ?_
  rw [erasePieces_eq_forM]

variable (hg : g.Plain) (hsettle : settings.BanksSettle busyPolls)
include hg hsettle

theorem readPieces_eq (limit : Nat → Nat) (position length : Nat) (done : ByteArray)
    (hin : position + length ≤ g.size) :
    ∃ d', readPieces g (Piece.tile limit position length) done d =
        .ok (done ++ Bytes.slice d.bus.memory position length) d' ∧
      Attuned g settings busyPolls d' ∧ d'.bus.memory = d.bus.memory := by
  induction length using Nat.strongRecOn generalizing position done d with
  | _ length ih =>
    by_cases hzero : length = 0
    · subst hzero
      have hnothing : done ++ Bytes.slice d.bus.memory position 0 = done := by
        rw [Bytes.slice_zero]
        exact ByteArray.append_empty
      rw [Piece.tile_zero, hnothing]
      exact ⟨d, rfl, h, rfl⟩
    · rw [Piece.tile_of_ne_zero _ _ hzero]
      let n := min length (max 1 (limit position))
      have hn : 0 < n ∧ n ≤ length := by omega
      obtain ⟨d₁, hfirst, hd₁, hmemory⟩ := readPiece_eq h hg hsettle
        (show position + n ≤ g.size by omega) (show n ≠ 0 by omega)
      obtain ⟨d', hrest, hd', hmemory'⟩ := ih (length - n) (by omega) hd₁ (position + n)
        (done ++ Bytes.slice d.bus.memory position n) (by omega)
      refine ⟨d', (bind_of_ok (attempt_of_ok hfirst) _).trans (hrest.trans ?_), hd',
        hmemory'.trans hmemory⟩
      have hend : n + (length - n) = length := by omega
      rw [hmemory, ByteArray.append_assoc, Bytes.slice_append_slice, hend]

theorem read_eq {offset length : Nat} (hin : offset + length ≤ g.size) :
    ∃ d', read offset length d = .ok (Bytes.slice d.bus.memory offset length) d' ∧
      Attuned g settings busyPolls d' ∧ d'.bus.memory = d.bus.memory := by
  obtain ⟨d', hpieces, hd', hmemory⟩ :=
    readPieces_eq h hg hsettle g.readLimit offset length .empty hin
  rw [ByteArray.empty_append] at hpieces
  exact ⟨d', (bind_of_ok (requireReady_eq h) _).trans
    ((bind_of_ok (requireInside_of_le d hin) _).trans hpieces), hd', hmemory⟩

/-- A program goes through all of its range, or stops behind its first piece when the waits of
programs run out. -/
theorem program_eq {offset : Nat} {data : ByteArray} (hin : offset + data.size ≤ g.size) :
    ∃ d' done, program offset data d =
        finish (data.size = 0 ∨ busyPolls < Poll.attempts settings.programTimeout) d' ∧
      Attuned g settings busyPolls d' ∧ done ≤ data.size ∧
      (busyPolls < Poll.attempts settings.programTimeout → done = data.size) ∧
      Rewrites (fun i byte => byte &&& Bytes.byteAt data (i - offset)) offset (offset + done)
        d.bus.memory d'.bus.memory := by
  have hstep (position length : Nat) (d : Driver Chip)
      (hfits : offset ≤ position ∧ position + length = offset + data.size) (hzero : length ≠ 0)
      (hd : Attuned g settings busyPolls d) :=
    @programPiece_eq g settings busyPolls d hd hg hsettle offset position
      (min length (max 1 (g.programLimit none position))) data (by omega)
      (Nat.min_le_right ..) hfits.1 (by omega) (by omega)
  obtain ⟨d', done, hpieces, hd'⟩ := forM_tile (programPiece g offset data)
    (g.programLimit none)
    (fun position length => offset ≤ position ∧ position + length = offset + data.size)
    (fun d => d.bus.memory) (fun position length hfits hzero => by omega) hstep
    offset data.size d ⟨Nat.le_refl _, rfl⟩ h
  exact ⟨d', done, (program_eq_pieces h hin).trans hpieces, hd'⟩

/-- An erase goes through all of its range, or stops behind its first unit when the waits of
erases run out. -/
theorem erase_eq {offset length : Nat} (hoffset : offset % g.eraseSize = 0)
    (hlength : length % g.eraseSize = 0) (hin : offset + length ≤ g.size) :
    ∃ d' done, erase offset length d =
        finish (length = 0 ∨ busyPolls < Poll.attempts settings.eraseTimeout) d' ∧
      Attuned g settings busyPolls d' ∧ done ≤ length ∧
      (busyPolls < Poll.attempts settings.eraseTimeout → done = length) ∧
      Rewrites (fun _ _ => 0xff) offset (offset + done) d.bus.memory d'.bus.memory := by
  have hpos := hg.eraseSize_pos
  have hunit {length : Nat} (hzero : length ≠ 0) (hlength : length % g.eraseSize = 0) :
      min length (max 1 g.eraseSize) = g.eraseSize ∧ g.eraseSize ≤ length := by
    have hle := Nat.le_of_dvd (Nat.pos_of_ne_zero hzero) (Nat.dvd_of_mod_eq_zero hlength)
    omega
  obtain ⟨d', done, hpieces, hd'⟩ := forM_tile (erasePiece g) (fun _ => g.eraseSize)
    (fun position length => position % g.eraseSize = 0 ∧ length % g.eraseSize = 0 ∧
      position + length ≤ g.size)
    (fun d => d.bus.memory)
    (fun position length ⟨hposition, hlength, hin⟩ hzero => by
      obtain ⟨hmin, hle⟩ := hunit hzero hlength
      rw [hmin, Nat.add_mod_right, ← Nat.mod_eq_sub_mod hle]
      exact ⟨hposition, hlength, by omega⟩)
    (fun position length d ⟨hposition, hlength, hin⟩ hzero hd => by
      obtain ⟨hmin, hle⟩ := hunit hzero hlength
      rw [hmin]
      exact erasePiece_eq hd hg hsettle hposition (by omega) _)
    offset length d ⟨hoffset, hlength, hin⟩ h
  exact ⟨d', done, (erase_eq_pieces h hoffset hlength hin).trans hpieces, hd'⟩

/-- Whatever the arguments of a read, it gives nothing but bytes of its own range and changes
nothing of the array. -/
theorem read_cases (offset length : Nat) :
    (offset + length ≤ g.size ∧
      ∃ d', read offset length d = .ok (Bytes.slice d.bus.memory offset length) d' ∧
        Attuned g settings busyPolls d' ∧ d'.bus.memory = d.bus.memory) ∨
    read offset length d = .error .addressOutOfBounds d := by
  by_cases hin : offset + length ≤ g.size
  · exact .inl ⟨hin, read_eq h hg hsettle hin⟩
  · exact .inr ((bind_of_ok (requireReady_eq h) _).trans
      (bind_of_error (requireInside_of_lt d (by omega)) _))

/-- Whatever the arguments of a program and whatever it returns, only its own range changes. -/
theorem program_cases (offset : Nat) (data : ByteArray) :
    ∃ d' done, stateAfter (program offset data d) = d' ∧ Attuned g settings busyPolls d' ∧
      done ≤ data.size ∧
      Rewrites (fun i byte => byte &&& Bytes.byteAt data (i - offset)) offset (offset + done)
        d.bus.memory d'.bus.memory := by
  by_cases hin : offset + data.size ≤ g.size
  · obtain ⟨d', done, hprogram, hd', hdone, -, hrewrites⟩ := program_eq h hg hsettle hin
    refine ⟨d', done, ?_, hd', hdone, hrewrites⟩
    rw [hprogram, stateAfter_finish]
  · exact h.refused ((bind_of_ok (requireReady_eq h) _).trans
      (bind_of_error (requireInside_of_lt d (by omega)) _)) ..

/-- Whatever the arguments of an erase and whatever it returns, only its own range changes. -/
theorem erase_cases (offset length : Nat) :
    ∃ d' done, stateAfter (erase offset length d) = d' ∧ Attuned g settings busyPolls d' ∧
      done ≤ length ∧
      Rewrites (fun _ _ => 0xff) offset (offset + done) d.bus.memory d'.bus.memory := by
  by_cases haligned : offset % g.eraseSize = 0 ∧ length % g.eraseSize = 0
  · by_cases hin : offset + length ≤ g.size
    · obtain ⟨d', done, herase, hd', hdone, -, hrewrites⟩ :=
        erase_eq h hg hsettle haligned.1 haligned.2 hin
      refine ⟨d', done, ?_, hd', hdone, hrewrites⟩
      rw [herase, stateAfter_finish]
    · have houtside : erase offset length d = .error .addressOutOfBounds d := by
        refine (bind_of_ok (requireReady_eq h) _).trans ?_
        rw [if_neg (by simp [haligned])]
        exact bind_of_error (requireInside_of_lt d (by omega)) _
      exact h.refused houtside ..
  · have hmisaligned : erase offset length d = .error .misaligned d := by
      refine (bind_of_ok (requireReady_eq h) _).trans ?_
      rw [if_pos (by omega)]
      rfl
    exact h.refused hmisaligned ..

end Requests

end NorFlash.Driver
