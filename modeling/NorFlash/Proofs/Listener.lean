import NorFlash.Proofs.Progress

/-!
What the array commands on a bus ask for. A listener follows the calls of a bus and works out from
the frames alone, with the die and the bank that were selected last, which bytes of the array each
array command is for. What it hears of a piece that has been carried out is that piece.
-/
namespace NorFlash

/-- What a listener knows of the part, and the pieces it has heard array commands for. -/
structure Listener where
  /-- The upper of two stacked dies was selected last. -/
  upper : Bool
  /-- The last value written to the bank register. -/
  bank : UInt8
  /-- The command bytes of the transaction that is under way. -/
  command : List UInt8 := []
  pieces : List Piece := []

namespace Listener

variable (g : Geometry) (listener : Listener)

/-- The start of what the frame of an array command addresses. -/
def position (command : List UInt8) : Nat :=
  (if listener.upper then g.size / 2 else 0) +
    ((match g.width with
      | .three => listener.bank.toNat * 0x1000000
      | .four => 0) +
    AddressWidth.decode ((command.drop 1).take g.width.bytes))

/-- Takes a whole command in, with the payload and the length of its data phase. -/
def take (command : List UInt8) (payload : Option ByteArray) (length : Nat) : Listener :=
  let heard (bytes : Nat) : Listener :=
    { listener with
      command := []
      pieces := listener.pieces ++ [⟨listener.position g command, bytes⟩] }
  match command.head?.bind Opcode.ofByte? with
  | some .writeBank | some .writeExtendedAddress =>
    { listener with command := [], bank := Bytes.byteAt (payload.getD .empty) 0 }
  | some .read | some .fastRead | some .dualOutputRead | some .quadOutputRead
  | some .dualIoRead | some .quadIoRead | some .pageProgram | some .quadPageProgram =>
    heard length
  | some .eraseSmallSector | some .eraseSector => heard g.eraseSize
  | _ => { listener with command := [] }

/-- A transfer either brings the bytes of a command or its data. -/
def hearTransfer (request : Transfer) : Listener :=
  let command :=
    if request.framing.first then Bytes.toList (request.payload.getD .empty)
    else listener.command
  if request.framing.last then
    if request.framing.first then listener.take g command none 0
    else listener.take g command request.payload (request.bits / 8)
  else
    { listener with command }

def hear : BusCall → Listener
  | .transfer request _ => listener.hearTransfer g request
  | .selectUpper upper => { listener with upper }
  | .release => listener
  | .delay _ => listener

/-- The listener after these calls. -/
def heard (calls : List BusCall) : Listener :=
  calls.foldl (hear g) listener

/-- The listener between two transactions. -/
def closed : Listener :=
  { listener with command := [] }

/-- What a phase comes to for a listener, when all of it is carried out. -/
def hearPhase : Phase → Listener
  | .command requests => requests.foldl (hearTransfer g) listener
  | .wait _ => listener.closed
  | .release => listener
  | .selectUpper upper => { listener with upper }

end Listener

section Hearing

variable {g : Geometry} {flagged : Bool} {calls : List BusCall}

theorem Listener.heard_append (listener : Listener) (calls more : List BusCall) :
    listener.heard g (calls ++ more) = (listener.heard g calls).heard g more :=
  List.foldl_append

/-- A whole command is taken in whatever it follows. -/
theorem Listener.foldl_transfers (listener : Listener) (command : ByteArray)
    (payload : Option ByteArray) (room : Option Nat) (length : Nat) :
    (Command.transfers command payload room length).foldl (hearTransfer g) listener =
      listener.take g (Bytes.toList command) (if length = 0 then none else payload) length := by
  unfold Command.transfers
  by_cases hnothing : length = 0
  · rw [if_pos hnothing, if_pos hnothing, hnothing]
    rfl
  · rw [if_neg hnothing, if_neg hnothing, decide_eq_false hnothing]
    have hbytes : length * 8 / 8 = length := Nat.mul_div_cancel length (by decide)
    change listener.take g (Bytes.toList command) payload (length * 8 / 8) = _
    rw [hbytes]

theorem Sent.heard {requests : List Transfer} (h : Sent requests calls none)
    (listener : Listener) :
    listener.heard g calls = requests.foldl (Listener.hearTransfer g) listener := by
  generalize hnone : (none : Option Error) = failure at h
  induction h generalizing listener with
  | done => rfl
  | answered request bytes rest ih => exact ih _ hnone
  | failed request requests cause => cases hnone

/-- A check is of no consequence to the listener. -/
theorem Sent.heard_check (h : Sent (Check.requests flagged) calls none) (listener : Listener) :
    listener.heard g calls = listener.closed := by
  rw [h.heard]
  cases flagged with
  | false => rfl
  | true => rfl

theorem Idle.closed_heard {checks : Nat} (h : Idle flagged checks calls) (listener : Listener) :
    (listener.heard g calls).closed = listener.closed := by
  induction h generalizing listener with
  | nil => rfl
  | again sent busy rest ih =>
    rw [Listener.heard_append, sent.heard_check]
    exact ih listener.closed

theorem Phase.Run.heard {phase : Phase} (h : phase.Run flagged calls none) (listener : Listener) :
    listener.heard g calls = listener.hearPhase g phase := by
  cases h with
  | command sent => exact sent.heard listener
  | release => rfl
  | selectUpper upper => rfl
  | wait waits =>
    cases waits with
    | settled idle left sent ready =>
      rw [Listener.heard_append, sent.heard_check]
      exact idle.closed_heard listener

theorem Performed.heard {phases : List Phase} (h : Performed flagged phases calls none)
    (listener : Listener) :
    listener.heard g calls = phases.foldl (Listener.hearPhase g) listener := by
  generalize hnone : (none : Option Error) = failure at h
  induction h generalizing listener with
  | done => rfl
  | carried run rest ih => rw [Listener.heard_append, run.heard, ih _ hnone, List.foldl_cons]
  | stopped run phases => cases hnone

/-- Behind a command no other is under way. -/
theorem Listener.closed_take (listener : Listener) (command : List UInt8)
    (payload : Option ByteArray) (length : Nat) :
    (listener.take g command payload length).closed = listener.take g command payload length := by
  unfold take
  split <;> rfl

/-- Of a write command the listener takes in its frame and its payload. -/
theorem Listener.foldl_write (listener : Listener) (settings : FlashSettings) (frame : Frame)
    (payload : Option ByteArray) :
    (Phase.write settings frame payload).foldl (hearPhase g) listener =
      listener.take g frame.toList
        (if (payload.getD .empty).size = 0 then none else some (payload.getD .empty))
        (payload.getD .empty).size := by
  have henable : (Command.transfers (Bytes.ofList [Opcode.writeEnable.byte]) none (some 0) 0).foldl
      (hearTransfer g) listener = listener.closed := by
    rw [foldl_transfers]
    rfl
  change ((Command.transfers frame.bytes (some (payload.getD .empty)) none
    (payload.getD .empty).size).foldl (hearTransfer g)
      ((Command.transfers (Bytes.ofList [Opcode.writeEnable.byte]) none (some 0) 0).foldl
        (hearTransfer g) listener)).closed = _
  rw [henable, foldl_transfers, closed_take]
  rfl

theorem Listener.foldl_receive (listener : Listener) (frame : Frame) (length : Nat) :
    (Phase.receive frame length).foldl (hearPhase g) listener =
      listener.take g frame.toList none length := by
  have hpayload : (if length = 0 then none else (none : Option ByteArray)) = none := by simp
  change (Command.transfers frame.bytes none (some length) length).foldl (hearTransfer g)
    listener = _
  rw [foldl_transfers, hpayload, Frame.toList_bytes]

end Hearing

/-- A layout of a single die or of dies one after the other. -/
structure Geometry.InSeries (g : Geometry) : Prop where
  wiring : g.wiring = .single ∨ g.wiring = .stacked
  size_lt : g.size < UInt32.size

namespace Geometry.InSeries

variable {g : Geometry} (hg : g.InSeries)
include hg

theorem bankOf_eq (address : Nat) : g.bankOf address = address / 0x1000000 := by
  unfold bankOf bankSpan
  rcases hg.wiring with hwiring | hwiring <;> rw [hwiring] <;> rfl

/-- The die and the address on it make up the position. -/
theorem locate_eq (position : Nat) :
    (if (g.locate position).upper then g.size / 2 else 0) + (g.locate position).address =
      position := by
  unfold locate
  rcases hg.wiring with hwiring | hwiring
  · rw [hwiring]
    exact Nat.zero_add position
  · rw [hwiring]
    dsimp only
    split
    case isTrue hupper =>
      rw [if_pos rfl]
      exact Nat.add_sub_cancel' hupper
    case isFalse hlower => exact Nat.zero_add position

theorem address_le (position : Nat) : (g.locate position).address ≤ position := by
  have hplace := hg.locate_eq position
  omega

end Geometry.InSeries

/-- How the commands of a driver reach the bytes that it means, given the value of the bank
register. -/
inductive Routes (g : Geometry) (state : DriverState) (bank : UInt8) : Prop where
  | banked (register : BankRegister) (inUse : state.bank = some register)
    (writes : register.writeCommand = .writeBank ∨ register.writeCommand = .writeExtendedAddress)
    (current : register.current = bank) (width : g.width = .three)
  | wide (unused : state.bank = none) (width : g.width = .four)
  | small (unused : state.bank = none) (width : g.width = .three) (first : bank = 0)
    (size_le : g.size ≤ Geometry.bankSize)

section Routing

variable {g : Geometry} {state : DriverState} {listener : Listener}

theorem Routes.congr {state' : DriverState} {bank : UInt8} (h : Routes g state bank)
    (hsame : state'.bank = state.bank) : Routes g state' bank := by
  cases h with
  | banked register inUse writes current width =>
    exact .banked register (hsame.trans inUse) writes current width
  | wide unused width => exact .wide (hsame.trans unused) width
  | small unused width first size_le => exact .small (hsame.trans unused) width first size_le

/-- A frame with an address of three bytes addresses a byte of the bank. -/
theorem Listener.position_three (listener : Listener) (hwidth : g.width = .three) {address : Nat}
    (hlt : address < UInt32.size) (opcode : UInt8) (rest : List UInt8) :
    listener.position g (opcode :: (g.width.encode (.ofNat address) ++ rest)) =
      (if listener.upper then g.size / 2 else 0) +
        (listener.bank.toNat * 0x1000000 + address % 0x1000000) := by
  have hword : (UInt32.ofNat address).toNat = address := UInt32.toNat_ofNat_of_lt' hlt
  unfold position
  rw [List.drop_one, List.tail_cons, ← AddressWidth.length_encode g.width (.ofNat address),
    List.take_left, hwidth, AddressWidth.decode_encode_three, hword]

/-- A frame addresses the byte that its die, its bank and its address make up. -/
theorem Listener.position_frame (listener : Listener) {address : Nat} (hlt : address < UInt32.size)
    (hbank : g.width = .three →
      listener.bank.toNat * 0x1000000 + address % 0x1000000 = address)
    (opcode : UInt8) (rest : List UInt8) :
    listener.position g (opcode :: (g.width.encode (.ofNat address) ++ rest)) =
      (if listener.upper then g.size / 2 else 0) + address := by
  cases hwidth : g.width with
  | three =>
    rw [← hwidth, listener.position_three hwidth hlt, hbank hwidth]
  | four =>
    have hword : (UInt32.ofNat address).toNat = address := UInt32.toNat_ofNat_of_lt' hlt
    unfold position
    rw [hwidth, List.drop_one, List.tail_cons, ← AddressWidth.length_encode .four (.ofNat address),
      List.take_left, AddressWidth.decode_encode_four, hword]
    exact congrArg (_ + ·) (Nat.zero_add address)

/-- The bank write of a driver brings the listener to the bank of the address, unless the driver
leaves it out. -/
theorem Listener.foldl_selectBank (listener : Listener) {register : BankRegister}
    (inUse : state.bank = some register)
    (writes : register.writeCommand = .writeBank ∨ register.writeCommand = .writeExtendedAddress)
    (address : Nat) :
    ∃ command, (Phase.selectBank g state address).foldl (hearPhase g) listener =
      { listener with
        bank := if g.bankOf address = register.current.toNat then listener.bank
          else .ofNat (g.bankOf address)
        command } := by
  rw [Phase.selectBank, inUse]
  dsimp only
  by_cases hsame : g.bankOf address = register.current.toNat
  · rw [if_pos hsame, if_pos hsame]
    exact ⟨listener.command, rfl⟩
  · rw [if_neg hsame, if_neg hsame, foldl_write]
    refine ⟨[], ?_⟩
    rcases writes with hop | hop <;> rw [hop] <;> rfl

/-- The bank write of a driver keeps the listener on the track of the driver, and brings it to the
bank of the address. -/
theorem Routes.selectBank (listener : Listener) (h : Routes g state listener.bank)
    (hg : g.InSeries) {address : Nat} (hin : address < g.size) :
    ∃ bank command, (Phase.selectBank g state address).foldl (Listener.hearPhase g) listener =
        { listener with bank, command } ∧
      Routes g (.banked g state address) bank ∧
      (g.width = .three → bank.toNat * 0x1000000 + address % 0x1000000 = address) := by
  have hlt := hg.size_lt
  have hbanked (unused : state.bank = none) : (DriverState.banked g state address).bank = none := by
    rw [DriverState.banked, unused]
    rfl
  have hnothing (unused : state.bank = none) :
      (Phase.selectBank g state address).foldl (Listener.hearPhase g) listener = listener := by
    rw [Phase.selectBank, unused]
    rfl
  cases h with
  | wide unused width =>
    refine ⟨listener.bank, listener.command, hnothing unused, .wide (hbanked unused) width, ?_⟩
    intro hthree
    cases width.symm.trans hthree
  | small unused width first size_le =>
    refine ⟨listener.bank, listener.command, hnothing unused,
      .small (hbanked unused) width first size_le, fun _ => ?_⟩
    unfold Geometry.bankSize at size_le
    rw [first, Nat.mod_eq_of_lt (by omega)]
    exact Nat.zero_add address
  | banked register inUse writes current width =>
    obtain ⟨command, hselect⟩ := listener.foldl_selectBank (g := g) inUse writes address
    have hbyte : address / 0x1000000 < UInt8.size := by
      unfold UInt32.size at hlt
      unfold UInt8.size
      omega
    have hvalue : (UInt8.ofNat (g.bankOf address)).toNat = address / 0x1000000 := by
      rw [hg.bankOf_eq, UInt8.toNat_ofNat_of_lt' hbyte]
    have hbank : (if g.bankOf address = register.current.toNat then listener.bank
        else .ofNat (g.bankOf address)) = .ofNat (g.bankOf address) := by
      split
      case isTrue hsame => rw [hsame, current, UInt8.ofNat_toNat]
      case isFalse => rfl
    rw [hbank] at hselect
    refine ⟨.ofNat (g.bankOf address), command, hselect, ?_, fun _ => ?_⟩
    · refine .banked { register with current := .ofNat (g.bankOf address) } ?_ writes rfl width
      rw [DriverState.banked, inUse]
      rfl
    · rw [hvalue]
      omega

/-- A listener that is on the track of the driver: it knows the die and the bank that the commands
of the driver go to. -/
structure Tracks (g : Geometry) (state : DriverState) (listener : Listener) : Prop where
  routes : Routes g state listener.bank
  lower : g.wiring = .single → listener.upper = false

/-- Visiting a position keeps the listener on track, and the frames that follow address it. -/
theorem Tracks.visit (h : Tracks g state listener) (hg : g.InSeries) {position : Nat}
    (hin : position < g.size) :
    ∃ after, (Phase.visit g state position).foldl (Listener.hearPhase g) listener = after ∧
      Tracks g (.visited g state position) after ∧ after.pieces = listener.pieces ∧
      ∀ opcode rest, after.position g (opcode ::
        (g.width.encode (.ofNat (g.locate position).address) ++ rest)) = position := by
  have hle := hg.address_le position
  have hlt := hg.size_lt
  let routed : DriverState :=
    { state with
      upper := if g.wiring = .stacked then (g.locate position).upper else state.upper }
  have hupper : (Phase.visit g state position).foldl (Listener.hearPhase g) listener =
      (Phase.selectBank g routed (g.locate position).address).foldl (Listener.hearPhase g)
        { listener with upper := (g.locate position).upper } := by
    unfold Phase.visit
    dsimp only
    rw [List.foldl_append]
    rcases hg.wiring with hwiring | hwiring
    · have hlower : (g.locate position).upper = listener.upper := by
        rw [h.lower hwiring, Geometry.locate, hwiring]
      rw [hwiring, hlower]
      rfl
    · rw [hwiring]
      rfl
  have hroutes : Routes g routed listener.bank := h.routes.congr rfl
  have hplace := Nat.lt_of_le_of_lt hle hin
  obtain ⟨bank, command, hselect, hbanked, haddress⟩ :=
    Routes.selectBank { listener with upper := (g.locate position).upper } hroutes hg hplace
  let after : Listener :=
    { listener with upper := (g.locate position).upper, bank, command }
  have hselected : (Phase.visit g state position).foldl (Listener.hearPhase g) listener = after :=
    hupper.trans hselect
  refine ⟨after, hselected, ⟨hbanked, fun hwiring => ?_⟩, rfl, fun opcode rest => ?_⟩
  · change (g.locate position).upper = false
    rw [Geometry.locate, hwiring]
  · have hword : (g.locate position).address < UInt32.size := Nat.lt_trans hplace hlt
    rw [after.position_frame hword haddress]
    exact hg.locate_eq position

/-- The commands for a piece, as a listener takes them in for which they reach this position. -/
def Listener.HearsAt (g : Geometry) (phases : List Phase) (piece : Piece) (reached : Nat) : Prop :=
  ∀ listener : Listener,
    (∀ opcode rest, listener.position g (opcode ::
      (g.width.encode (.ofNat (g.locate piece.position).address) ++ rest)) = reached) →
    phases.foldl (hearPhase g) listener =
      { listener with command := [], pieces := listener.pieces ++ [⟨reached, piece.length⟩] }

/-- The commands for a piece, as the listener takes them in once its position has been visited. -/
def Listener.HearsPiece (g : Geometry) (commands : Piece → List Phase) (piece : Piece) : Prop :=
  HearsAt g (commands piece) piece piece.position

theorem Piece.hears_erase (settings : FlashSettings) {piece : Piece}
    (herases : g.eraseCommand = .eraseSmallSector ∨ g.eraseCommand = .eraseSector)
    (hlength : piece.length = g.eraseSize) (reached : Nat) :
    Listener.HearsAt g (piece.eraseCommands g settings) piece reached := by
  intro listener hposition
  have hframe := hposition g.eraseCommand.byte []
  rw [List.append_nil] at hframe
  have htake : listener.take g (g.eraseCommand.byte ::
        g.width.encode (.ofNat (g.locate piece.position).address)) none 0 =
      { listener with
        command := []
        pieces := listener.pieces ++ [⟨listener.position g (g.eraseCommand.byte ::
          g.width.encode (.ofNat (g.locate piece.position).address)), g.eraseSize⟩] } := by
    rcases herases with hop | hop <;> rw [hop] <;> rfl
  rw [hframe, ← hlength] at htake
  exact (Listener.foldl_write ..).trans htake

theorem Piece.hears_program (settings : FlashSettings) {offset : Nat} {data : ByteArray}
    {piece : Piece} (hdata : piece.position - offset + piece.length ≤ data.size) (reached : Nat) :
    Listener.HearsAt g (piece.programCommands g settings offset data) piece reached := by
  intro listener hposition
  have hsize : (Bytes.slice data (piece.position - offset) piece.length).size = piece.length := by
    rw [Bytes.size_slice]
    omega
  have hframe := hposition g.programMode.opcode.byte []
  rw [List.append_nil] at hframe
  have htake (payload : Option ByteArray) : listener.take g (g.programMode.opcode.byte ::
        g.width.encode (.ofNat (g.locate piece.position).address)) payload piece.length =
      { listener with
        command := []
        pieces := listener.pieces ++ [⟨listener.position g (g.programMode.opcode.byte ::
          g.width.encode (.ofNat (g.locate piece.position).address)), piece.length⟩] } := by
    cases g.programMode <;> rfl
  rw [hframe] at htake
  refine (Listener.foldl_write ..).trans ?_
  rw [Option.getD_some, hsize]
  exact htake _

theorem Piece.hears_read (piece : Piece) (reached : Nat) :
    Listener.HearsAt g (piece.readCommands g) piece reached := by
  intro listener hposition
  have htake (rest : List UInt8) : listener.take g (g.readMode.opcode.byte ::
        (g.width.encode (.ofNat (g.locate piece.position).address) ++ rest)) none piece.length =
      { listener with
        command := []
        pieces := listener.pieces ++ [⟨listener.position g (g.readMode.opcode.byte ::
          (g.width.encode (.ofNat (g.locate piece.position).address) ++ rest)),
          piece.length⟩] } := by
    cases g.readMode <;> rfl
  refine (Listener.foldl_receive ..).trans ((htake _).trans ?_)
  rw [hposition]

/-- What is heard of a request that comes to its end are its pieces. -/
theorem Course.heard {flagged : Bool} {commands : Piece → List Phase} {pieces : List Piece}
    {progress : Progress} (h : Course flagged g commands state pieces progress)
    (hnone : progress.failure = none) (hg : g.InSeries) (htracks : Tracks g state listener)
    (hin : ∀ piece ∈ pieces, piece.position < g.size)
    (hhears : ∀ piece ∈ pieces, Listener.HearsPiece g commands piece) :
    (listener.heard g progress.calls).pieces = listener.pieces ++ pieces := by
  induction h generalizing listener with
  | finished state => exact (List.append_nil _).symm
  | stopped pieces performed => cases hnone
  | @completed state piece pieces calls progress performed rest ih =>
    have hfirst : piece ∈ piece :: pieces := List.mem_cons_self
    obtain ⟨after, hvisit, hafter, hpieces, hposition⟩ := htracks.visit hg (hin piece hfirst)
    have hcalls : listener.heard g calls =
        { after with command := [], pieces := after.pieces ++ [piece] } := by
      rw [performed.heard, List.foldl_append, hvisit]
      exact hhears piece hfirst after hposition
    have hnext : Tracks g (.visited g state piece.position) (listener.heard g calls) := by
      rw [hcalls]
      exact ⟨hafter.routes, hafter.lower⟩
    rw [Progress.calls_cons, Listener.heard_append,
      ih hnone hnext (fun piece h => hin piece (List.mem_cons_of_mem _ h))
        (fun piece h => hhears piece (List.mem_cons_of_mem _ h)), hcalls, hpieces,
      List.append_assoc]
    rfl

end Routing

end NorFlash
