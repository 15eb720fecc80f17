import NorFlash.Proofs.GuardedRead
import NorFlash.Proofs.ReadRequest

/-!
The requests that read through the pool, with every division, difference and range checked. Reading
a region never ends in a fault: the pool has refused a device with unfit pages before the window is
rounded to them. Listing a package divides by the size of a page before that, and faults exactly
when it is zero. Opening the flash, and the transfers below the driver, are taken as they run.
-/
namespace NorFlash

open Block

namespace Tool

open Guarded (Passes)
open Run (Tells tells_print tells_printAll tells_writeFile)
open Flash (tells_openTarget)

def alignedWindow? (offset length pageSize : Nat) : Option Region := do
  let first ← quotient? offset pageSize
  let last ← quotient? (offset + length + pageSize - 1) pageSize
  let size ← difference? (last * pageSize) (first * pageSize)
  return ⟨first * pageSize, size⟩

theorem alignedWindow?_eq (offset length : Nat) {pageSize : Nat} (hpage : 0 < pageSize) :
    alignedWindow? offset length pageSize = some (alignedWindow offset length pageSize) := by
  have hpages : offset / pageSize ≤ (offset + length + pageSize - 1) / pageSize :=
    Nat.div_le_div_right (by omega)
  have hwindow := Nat.mul_le_mul_right pageSize hpages
  simp only [alignedWindow?, quotient?_of_pos hpage, difference?_of_le hwindow,
    Option.bind_eq_bind, Option.bind_some]
  rfl

/-- The reads of the device over the driver. -/
def deviceRead? : Nat → Guarded Error (Window × FlashDevice Flash) ByteArray :=
  FlashDevice.read? Driver.readInto?

theorem passes_deviceRead (length : Nat) (state : Window × FlashDevice Flash) :
    Passes (deviceRead? length) (Device.read length) state :=
  FlashDevice.passes_read Driver.passes_readInto length state

theorem size_of_readPieces {entity : Entity} {pieces : List Piece} {done bytes : ByteArray}
    {pool after : Pool (FlashDevice Flash)}
    (h : readPieces entity pieces done pool = .ok bytes after) : after.size = pool.size := by
  induction pieces generalizing done pool with
  | nil =>
    cases h
    rfl
  | cons piece pieces ih =>
    obtain ⟨read, between, hread, hrest⟩ := ok_of_bind h
    exact (ih hrest).trans (Pool.size_of_onSlot hread)

/-- Each piece goes to its place in a buffer of `length` bytes. -/
def readPieces? (entity : Entity) (length : Nat) :
    List Piece → ByteArray → Guarded Error (Pool (FlashDevice Flash)) ByteArray
  | [], done => pure done
  | piece :: pieces, done => do
    let _ ← Guarded.demand (difference? length done.size)
    let _ ← Guarded.demand (range? done.size (done.size + piece.length) length)
    let bytes ← Pool.read? deviceRead? entity piece.length
    readPieces? entity length pieces (done ++ bytes)

/-- The pieces that are left tile what is left of the buffer, by induction on them. -/
theorem passes_readPieces (entity : Entity) {length : Nat} {pieces : List Piece} {done : ByteArray}
    (h : Tiles done.size pieces length) (pool : Pool (FlashDevice Flash)) :
    Passes (readPieces? entity length pieces done) (readPieces entity pieces done) pool := by
  induction pieces generalizing done pool with
  | nil => exact .pure done pool
  | cons piece pieces ih =>
    obtain ⟨-, -, hrest⟩ := h
    have htotal := hrest.total
    apply Passes.demand (difference?_of_le (by omega))
    apply Passes.demand (range?_of_le (by omega) (by omega))
    apply Passes.bind (Pool.passes_read passes_deviceRead entity piece.length pool)
    intro bytes after hread
    apply ih
    rwa [ByteArray.size_append, Pool.size_of_read FlashDevice.readsAll hread]

def fetchRegion? (offset length pageSize : Nat) (handle : Handle) :
    Guarded Error (Pool (FlashDevice Flash)) ByteArray := do
  let window ← Guarded.demand (alignedWindow? offset length pageSize)
  let entity ← Guarded.lift (Pool.openWindow handle window)
  let place ← Guarded.demand (difference? offset window.offset)
  Guarded.lift (Pool.seek entity .set place)
  let bytes ← readPieces? entity length (Piece.tile (fun _ => readChunk) 0 length) .empty
  Guarded.lift (Pool.close entity)
  let _ ← Pool.deviceClose? handle
  return bytes

theorem passes_fetchRegion {offset length pageSize : Nat} (hpage : 0 < pageSize) (handle : Handle)
    {pool : Pool (FlashDevice Flash)} (hbound : 0 < pool.size) :
    Passes (fetchRegion? offset length pageSize handle) (fetchRegion offset length pageSize handle)
      pool := by
  have hbase := (@alignedWindow_holds offset length pageSize hpage).1
  have htiles : Tiles ByteArray.empty.size (Piece.tile (fun _ => readChunk) 0 length) length := by
    have htile := Piece.tiles_tile (fun _ => readChunk) 0 length
    rwa [Nat.zero_add] at htile
  apply Passes.demand (alignedWindow?_eq offset length hpage)
  apply Passes.bind (.lift _ pool)
  intro entity opened hopen
  apply Passes.demand (difference?_of_le hbase)
  rw [Int.ofNat_sub hbase]
  apply Passes.bind (.lift _ opened)
  intro _ sought hseek
  apply Passes.bind (passes_readPieces entity htiles sought)
  intro bytes filled hread
  apply Passes.bind (.lift _ filled)
  intro _ closed hclose
  have hsize : closed.size = pool.size := by
    rw [Pool.size_of_onSlot hclose, size_of_readPieces hread, Pool.size_of_onSlot hseek,
      Pool.size_of_onSlot hopen]
  apply Passes.bind (Pool.passes_deviceClose handle (by omega))
  intro _ released _
  exact .pure bytes released

/-- Lists the package in a window. -/
def fetchEntries (window : Region) (handle : Handle) :
    EStateM Error (Pool (FlashDevice Flash)) (List Package.Entry) := do
  Pool.check handle window
  let entity ← Pool.openWindow handle window
  fun pool =>
    match Package.readContents window.length
        (⟨pool, entity⟩ : EntityReader (FlashDevice Flash)) with
    | .ok entries reader => .ok entries reader.pool
    | .error cause reader => .error cause reader.pool

def fetchEntries? (window : Region) (handle : Handle) :
    Guarded Error (Pool (FlashDevice Flash)) (List Package.Entry) := do
  Guarded.lift (Pool.check handle window)
  let entity ← Guarded.lift (Pool.openWindow handle window)
  Guarded.of fun pool =>
    match (Package.readContents? (EntityReader.read? deviceRead?) window.length).run
        (⟨pool, entity⟩ : EntityReader (FlashDevice Flash)) with
    | .ok entries reader => .ok entries reader.pool
    | .error cause reader => .error cause reader.pool

theorem passes_fetchEntries (window : Region) (handle : Handle) (pool : Pool (FlashDevice Flash)) :
    Passes (fetchEntries? window handle) (fetchEntries window handle) pool := by
  apply Passes.bind (.lift _ pool)
  intro _ checked _
  apply Passes.bind (.lift _ checked)
  intro entity opened _
  have hpasses := Package.passes_readContents (EntityReader.passes_read passes_deviceRead)
    (EntityReader.size_of_read FlashDevice.readsAll) window.length ⟨opened, entity⟩
  cases hread : Package.readContents window.length
      (⟨opened, entity⟩ : EntityReader (FlashDevice Flash)) with
  | ok entries after =>
    exact .of_ok (by rw [Guarded.run_of, hpasses.ok hread]) (by rw [hread])
  | error cause after =>
    exact .of_error (by rw [Guarded.run_of, hpasses.error hread]) (by rw [hread])

def withDevice? {α : Type} (device : FlashDevice Flash)
    (action : Handle → Guarded Error (Pool (FlashDevice Flash)) α) : Guarded Failure Session α :=
  OptionT.mk (withDevice device fun handle => (action handle).run)

/-- Only a device that is accepted gets as far as the operation. -/
theorem passes_withDevice {α : Type} {device : FlashDevice Flash}
    {guarded : Handle → Guarded Error (Pool (FlashDevice Flash)) α}
    {action : Handle → EStateM Error (Pool (FlashDevice Flash)) α}
    (h : device.isValid = true → ∀ handle pool, 0 < pool.size →
      Passes (guarded handle) (action handle) pool) (session : Session) :
    Passes (withDevice? device guarded) (withDevice device action) session := by
  cases hvalid : device.isValid with
  | false =>
    exact .of_error (withDevice_of_not_isValid _ hvalid session)
      (withDevice_of_not_isValid _ hvalid session)
  | true =>
    have hguarded := withDevice_of_isValid (fun handle => (guarded handle).run) hvalid session
    have hplain := withDevice_of_isValid action hvalid session
    have hpasses := h hvalid ⟨0, device.key⟩ (.holding device.key device none [none] [.flash])
      Nat.one_pos
    cases haction : action ⟨0, device.key⟩ (.holding device.key device none [none] [.flash]) with
    | ok value after =>
      rw [hpasses.ok haction] at hguarded
      rw [haction] at hplain
      exact .of_ok hguarded hplain
    | error cause after =>
      rw [hpasses.error haction] at hguarded
      rw [haction] at hplain
      exact .of_error hguarded hplain

def read? (target : Target) (settings : PlatformSettings) (offset length : Nat)
    (output : String) : Guarded Failure Session Unit := do
  if length = 0 then
    Guarded.lift (throw .zeroLength)
  else
    let (geometry, flash) ← Guarded.lift (Flash.openTarget target settings)
    if geometry.size < offset + length then
      Guarded.lift (throw (.outsideFlash offset length geometry.size))
    else
      let bytes ← withDevice? (storageDevice settings.storage flash)
        (fetchRegion? offset length settings.storage.pageSize)
      Guarded.lift do
        Run.writeFile output bytes
        Run.print ("Wrote " ++ toString bytes.size ++ " bytes to " ++ Text.quoted output)

def listPackage? (target : Target) (settings : PlatformSettings) :
    Guarded Failure Session Unit := do
  let (geometry, flash) ← Guarded.lift (Flash.openTarget target settings)
  let storage := settings.storage
  let length := min storage.package.length (geometry.size - storage.package.offset)
  let pages ← Guarded.demand (quotient? length storage.pageSize)
  let window : Region := ⟨storage.package.offset, pages * storage.pageSize⟩
  let entries ← withDevice? (storageDevice storage flash) (fetchEntries? window)
  Guarded.lift do
    Run.print ("FIP at " ++ Text.Hex.prefixed window.offset ++ " (" ++ toString entries.length ++
      " entries):")
    Run.print (Text.left 10 "Image" ++ " " ++ Text.right 12 "Offset" ++ " " ++
      Text.right 12 "Size" ++ "  UUID")
    Run.print (Text.rule 72)
    for entry in entries do
      Run.print (entryLine entry)

theorem tells_withDevice {α : Type} (device : FlashDevice Flash)
    (action : Handle → EStateM Error (Pool (FlashDevice Flash)) α) :
    Tells (withDevice device action) := by
  unfold withDevice
  split
  · exact .throw rfl
  · split
    · exact .throw rfl
    · split
      · exact .pure _
      · exact .throw rfl

section Requests

variable (target : Target) (settings : PlatformSettings)

/-- Before a window is rounded to pages, the pool has made sure that there are pages. -/
theorem passes_read (offset length : Nat) (output : String) (session : Session) :
    Passes (read? target settings offset length output) (read target settings offset length output)
      session := by
  apply Passes.ite
  · intro _
    exact .of_error rfl rfl
  · intro _
    apply Passes.bind (.lift _ session)
    rintro ⟨geometry, flash⟩ opened _
    apply Passes.ite
    · intro _
      exact .of_error rfl rfl
    · intro _
      apply Passes.bind (passes_withDevice _ opened)
      · intro bytes fetched _
        exact .lift _ fetched
      · intro hvalid handle pool hbound
        exact passes_fetchRegion (FlashDevice.pos_of_isValid _ hvalid).1 handle hbound

variable {settings}

theorem passes_listPackage (hpage : 0 < settings.storage.pageSize) (session : Session) :
    Passes (listPackage? target settings) (listPackage target settings) session := by
  apply Passes.bind (.lift _ session)
  rintro ⟨geometry, flash⟩ opened _
  apply Passes.demand (quotient?_of_pos hpage _)
  dsimp only
  rw [if_neg (Nat.ne_of_gt hpage)]
  apply Passes.bind (passes_withDevice _ opened)
  · intro entries fetched _
    exact .lift _ fetched
  · intro _ handle pool _
    exact passes_fetchEntries _ handle pool

/-- Listing a package divides by the size of a page as soon as the part has been scanned. -/
theorem faults_listPackage_iff (session : Session) :
    (listPackage? target settings).Faults session ↔
      settings.storage.pageSize = 0 ∧
        ∃ opened after, Flash.openTarget target settings session = .ok opened after := by
  constructor
  · intro hfaults
    rcases Nat.eq_zero_or_pos settings.storage.pageSize with hzero | hpage
    · refine ⟨hzero, ?_⟩
      cases hopen : Flash.openTarget target settings session with
      | ok opened after => exact ⟨opened, after, rfl⟩
      | error cause after =>
        obtain ⟨faulted, hfault⟩ := hfaults
        cases (Guarded.run_bind_of_error ((Passes.lift _ session).error hopen)).symm.trans hfault
    · exact absurd hfaults (passes_listPackage target hpage session).not_faults
  · rintro ⟨hzero, ⟨geometry, flash⟩, after, hopen⟩
    refine ⟨after, (Guarded.run_bind_of_ok ((Passes.lift _ session).ok hopen)).trans ?_⟩
    dsimp only
    rw [hzero, quotient?_zero]
    rfl

variable (settings)

theorem tells_read (offset length : Nat) (output : String) :
    Tells (read target settings offset length output) := by
  apply Tells.ite
  · intro _
    exact .throw rfl
  · intro _
    apply (tells_openTarget target settings).bind
    rintro ⟨geometry, flash⟩
    apply Tells.ite
    · intro _
      exact .throw rfl
    · intro _
      apply (tells_withDevice _ _).bind
      intro bytes
      exact (tells_writeFile _ _).bind fun _ => tells_print _

/-- The pool hands a device back whose storage settings do not fit. -/
theorem read_of_not_isValid {geometry : Geometry} {flash : Flash} {session opened : Session}
    (hopen : Flash.openTarget target settings session = .ok (geometry, flash) opened)
    (hinvalid : (storageDevice settings.storage flash).isValid = false) {offset length : Nat}
    (hpos : 0 < length) (hin : offset + length ≤ geometry.size) (output : String) :
    read target settings offset length output session =
      .error (.stack .invalidArgument) opened := by
  unfold read
  rw [if_neg (Nat.ne_of_gt hpos)]
  refine (bind_of_ok hopen _).trans ?_
  dsimp only
  rw [if_neg (Nat.not_lt.mpr hin)]
  exact bind_of_error (withDevice_of_not_isValid _ hinvalid opened) _

variable {settings}

theorem tells_listPackage (hpage : 0 < settings.storage.pageSize) :
    Tells (listPackage target settings) := by
  apply (tells_openTarget target settings).bind
  rintro ⟨geometry, flash⟩
  dsimp only
  rw [if_neg (Nat.ne_of_gt hpage)]
  apply (tells_withDevice _ _).bind
  intro entries
  apply (tells_print _).bind
  intro _
  apply (tells_print _).bind
  intro _
  apply (tells_print _).bind
  intro _
  exact tells_printAll entries entryLine

theorem listPackage_of_not_isValid (hpage : 0 < settings.storage.pageSize) {geometry : Geometry}
    {flash : Flash} {session opened : Session}
    (hopen : Flash.openTarget target settings session = .ok (geometry, flash) opened)
    (hinvalid : (storageDevice settings.storage flash).isValid = false) :
    listPackage target settings session = .error (.stack .invalidArgument) opened := by
  refine (bind_of_ok hopen _).trans ?_
  dsimp only
  rw [if_neg (Nat.ne_of_gt hpage)]
  exact bind_of_error (withDevice_of_not_isValid _ hinvalid opened) _

/-- Where no check fails, a listing does what it does without them, and tells of its failure. -/
theorem reported_of_not_faults {session : Session}
    (h : ¬ (listPackage? target settings).Faults session) :
    Passes (listPackage? target settings) (listPackage target settings) session ∧
      ∀ cause after, listPackage target settings session = .error cause after →
        cause.message?.isSome = true := by
  rcases Nat.eq_zero_or_pos settings.storage.pageSize with hzero | hpage
  · cases hopen : Flash.openTarget target settings session with
    | ok opened after =>
      exact absurd ((faults_listPackage_iff target session).mpr ⟨hzero, opened, after, hopen⟩) h
    | error cause after =>
      have hlist : listPackage target settings session = .error cause after := bind_of_error hopen _
      constructor
      · exact .of_error (Guarded.run_bind_of_error ((Passes.lift _ session).error hopen)) hlist
      · intro told last htold
        cases hlist.symm.trans htold
        exact tells_openTarget target settings session _ _ hopen
  · exact ⟨passes_listPackage target hpage session, tells_listPackage target hpage session⟩

/-- A check fails exactly where the listing ends without a message. -/
theorem faults_iff_zeroPageSize {session : Session} :
    (listPackage? target settings).Faults session ↔
      ∃ after, listPackage target settings session = .error .zeroPageSize after := by
  constructor
  · intro hfaults
    obtain ⟨hzero, ⟨geometry, flash⟩, after, hopen⟩ :=
      (faults_listPackage_iff target session).mp hfaults
    refine ⟨after, (bind_of_ok hopen _).trans ?_⟩
    dsimp only
    rw [if_pos hzero]
    rfl
  · rintro ⟨after, hends⟩
    by_contra hsound
    have htold := (reported_of_not_faults target hsound).2 _ _ hends
    cases htold

end Requests

/-- Storage in pages of no bytes. -/
def zeroPages : PlatformSettings where
  storage := { pageSize := 0 }

/-- An erased part is opened all the same. -/
theorem exists_openTarget_zeroPages :
    ∃ geometry flash, 1 ≤ geometry.size ∧
      Flash.openTarget ⟨"f", "w25q256"⟩ zeroPages { workspace := {} } =
        .ok (geometry, flash) { workspace := {} } := by
  have himage : Workspace.image "f" {} = .ok .empty := by cbv
  have hsound : (Flash.setup .w25q256 .empty zeroPages).Sound :=
    ⟨Part.w25q256_mem, Nat.zero_le _, by decide, rfl, .inl (by decide)⟩
  obtain ⟨ready, hscans, -⟩ := hsound.exists_scans Part.w25q256_takenFor rfl
  have hopen := @Flash.openTarget_of_scans ⟨"f", "w25q256"⟩ zeroPages { workspace := {} } _
    Part.findByName?_w25q256 _ himage _ _ hscans
  exact ⟨_, ready, by decide, hopen⟩

/-- Reading a region reports whatever is wrong, and no check of it ever fails. Listing a package
ends in a fault, without a message, exactly when pages are of no bytes and the flash can be opened;
otherwise it too reports what is wrong. Once the flash is open, settings that do not fit are an
invalid argument to both, but for pages of no bytes in a listing. -/
theorem storage_settings_reported_iff (target : Target) (settings : PlatformSettings)
    (session : Session) :
    (∀ offset length output,
      Passes (read? target settings offset length output)
        (read target settings offset length output) session ∧
      ∀ cause after, read target settings offset length output session = .error cause after →
        cause.message?.isSome = true) ∧
    ((listPackage? target settings).Faults session ↔
      settings.storage.pageSize = 0 ∧
        ∃ opened after, Flash.openTarget target settings session = .ok opened after) ∧
    ((listPackage? target settings).Faults session ↔
      ∃ after, listPackage target settings session = .error .zeroPageSize after) ∧
    (¬ (listPackage? target settings).Faults session →
      Passes (listPackage? target settings) (listPackage target settings) session ∧
      ∀ cause after, listPackage target settings session = .error cause after →
        cause.message?.isSome = true) ∧
    ∀ geometry flash opened,
      Flash.openTarget target settings session = .ok (geometry, flash) opened →
      (storageDevice settings.storage flash).isValid = false →
      (∀ offset length output, 0 < length → offset + length ≤ geometry.size →
        read target settings offset length output session =
          .error (.stack .invalidArgument) opened) ∧
      (settings.storage.pageSize ≠ 0 →
        listPackage target settings session = .error (.stack .invalidArgument) opened) := by
  refine ⟨?_, faults_listPackage_iff target session, faults_iff_zeroPageSize target,
    reported_of_not_faults target, ?_⟩
  · intro offset length output
    exact ⟨passes_read target settings offset length output session,
      tells_read target settings offset length output session⟩
  · intro geometry flash opened hopen hinvalid
    constructor
    · intro offset length output hpos hin
      exact read_of_not_isValid target settings hopen hinvalid hpos hin output
    · intro hpage
      exact listPackage_of_not_isValid target (Nat.pos_of_ne_zero hpage) hopen hinvalid

/-- A read reports pages of no bytes. -/
theorem storage_settings_reported_iff_zeroPages :
    (∃ geometry flash, Flash.openTarget ⟨"f", "w25q256"⟩ zeroPages { workspace := {} } =
        .ok (geometry, flash) { workspace := {} } ∧
      (storageDevice zeroPages.storage flash).isValid = false) ∧
    read ⟨"f", "w25q256"⟩ zeroPages 0 1 "o" { workspace := {} } =
      .error (.stack .invalidArgument) { workspace := {} } := by
  obtain ⟨geometry, flash, hsize, hopen⟩ := exists_openTarget_zeroPages
  have hinvalid : (storageDevice zeroPages.storage flash).isValid = false := by
    simp [FlashDevice.isValid, FlashDevice.isPowerOfTwo, storageDevice, zeroPages]
  obtain ⟨-, -, -, -, hreported⟩ :=
    storage_settings_reported_iff ⟨"f", "w25q256"⟩ zeroPages { workspace := {} }
  have hread := (hreported geometry flash _ hopen hinvalid).1 0 1 "o" Nat.one_pos (by omega)
  exact ⟨⟨geometry, flash, hopen, hinvalid⟩, hread⟩

/-- A listing divides by them, and ends without a message. -/
theorem listPackage_faults_zeroPages :
    (listPackage? ⟨"f", "w25q256"⟩ zeroPages).Faults { workspace := {} } ∧
      ∃ after, listPackage ⟨"f", "w25q256"⟩ zeroPages { workspace := {} } =
        .error .zeroPageSize after := by
  obtain ⟨geometry, flash, -, hopen⟩ := exists_openTarget_zeroPages
  have hfaults : (listPackage? ⟨"f", "w25q256"⟩ zeroPages).Faults { workspace := {} } :=
    (faults_listPackage_iff _ _).mpr ⟨rfl, _, _, hopen⟩
  exact ⟨hfaults, (faults_iff_zeroPageSize _).mp hfaults⟩

end Tool

end NorFlash
