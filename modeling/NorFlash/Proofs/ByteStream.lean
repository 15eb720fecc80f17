import NorFlash.Bus
import NorFlash.Controller.Engine
import NorFlash.Emulation.Chip
import NorFlash.Proofs.Bytes

/-!
The part as a bus of its own. Without a controller in between, a transfer selects the part,
clocks the bytes through it one by one and releases it again.
-/
namespace NorFlash

namespace Transfer

/-- Byte `i` that is sent: of the payload, or the idle byte when there is none. -/
def byteSent (payload : Option ByteArray) (i : Nat) : UInt8 :=
  match payload with
  | some bytes => Bytes.byteAt bytes i
  | none => Controller.Engine.idleByte

/-- All bytes that a transfer sends. -/
def sent (request : Transfer) : List UInt8 :=
  (List.range (request.bits / 8)).map (byteSent request.payload)

theorem map_byteSent (request : Transfer) :
    (List.range' 0 (request.bits / 8)).map (byteSent request.payload) = request.sent := by
  rw [← List.range_eq_range', sent]

theorem sent_some (bits : Nat) (payload : ByteArray) (room : Option Nat) (framing : Framing)
    (h : bits / 8 = payload.size) :
    sent ⟨bits, some payload, room, framing⟩ = Bytes.toList payload := by
  apply List.ext_getElem (by simp [sent, h])
  intro i hi hp
  simp only [sent, byteSent, List.getElem_map, List.getElem_range, Bytes.byteAt_eq_getD,
    List.getElem?_eq_getElem hp, Option.getD_some]

theorem sent_none (bits : Nat) (room : Option Nat) (framing : Framing) :
    sent ⟨bits, none, room, framing⟩ = List.replicate (bits / 8) Controller.Engine.idleByte := by
  rw [List.eq_replicate_iff]
  simp [sent, byteSent]

theorem length_sent (request : Transfer) : request.sent.length = request.bits / 8 := by
  rw [sent, List.length_map, List.length_range]

/-- Some buffer of the transfer is shorter than the transfer. -/
def isShort (request : Transfer) : Bool :=
  (request.payload.map (·.size)).any (· < request.bits / 8) ||
    request.room.any (· < request.bits / 8)

end Transfer

namespace Emulation.Chip

@[simp] theorem selected_deselect (chip : Chip) : chip.deselect.selected = false := by
  unfold deselect
  cases hs : chip.selected
  · simp [hs]
  · by_cases hseen : chip.seen.size = 0 <;> simp [hseen]

theorem deselect_of_released {chip : Chip} (h : chip.selected = false) : chip.deselect = chip := by
  simp [deselect, h]

theorem exchange_of_released {chip : Chip} (h : chip.selected = false) (byte : UInt8) :
    chip.exchange byte = (0xff, chip) := by
  simp [exchange, h]

@[simp] theorem selected_exchange (chip : Chip) (byte : UInt8) :
    (chip.exchange byte).2.selected = chip.selected := by
  cases h : chip.selected
  · rw [exchange_of_released h, h]
  · unfold exchange
    simp only [h, Bool.not_true, Bool.false_eq_true, ↓reduceIte]
    split
    · exact h
    · split <;> exact h

/-- Clocks bytes through the part and gives the bytes clocked out. -/
def clock : List UInt8 → Chip → List UInt8 × Chip
  | [], chip => ([], chip)
  | byte :: bytes, chip =>
    let rest := clock bytes (chip.exchange byte).2
    ((chip.exchange byte).1 :: rest.1, rest.2)

@[simp] theorem clock_nil (chip : Chip) : clock [] chip = ([], chip) :=
  rfl

theorem clock_cons (byte : UInt8) (bytes : List UInt8) (chip : Chip) :
    clock (byte :: bytes) chip =
      ((chip.exchange byte).1 :: (clock bytes (chip.exchange byte).2).1,
        (clock bytes (chip.exchange byte).2).2) :=
  rfl

/-- The part as a transfer with this framing finds it. -/
def opened (framing : Framing) (chip : Chip) : Chip :=
  if framing.first then chip.select else chip

/-- The part as a transfer with this framing leaves it. -/
def closed (framing : Framing) (chip : Chip) : Chip :=
  if framing.last then chip.deselect else chip

/-- What a transfer hands over of the bytes clocked out. -/
def kept (request : Transfer) (answers : List UInt8) : ByteArray :=
  if request.room.isSome then Bytes.ofList answers else .empty

def transfer (request : Transfer) (chip : Chip) : EStateM.Result Error Chip ByteArray :=
  if request.bits = 0 then
    .ok .empty (chip.closed request.framing)
  else if request.bits % 8 ≠ 0 then
    .error .partialByte chip.deselect
  else if request.isShort then
    .error .bufferTooSmall chip.deselect
  else
    let clocked := (chip.opened request.framing).clock request.sent
    .ok (kept request clocked.1) (clocked.2.closed request.framing)

theorem transfer_of_sound {request : Transfer} (hpos : request.bits ≠ 0)
    (hwhole : request.bits % 8 = 0) (hshort : request.isShort = false) (chip : Chip) :
    transfer request chip =
      .ok (kept request ((chip.opened request.framing).clock request.sent).1)
        (((chip.opened request.framing).clock request.sent).2.closed request.framing) := by
  simp [transfer, hpos, hwhole, hshort]

instance : SpiBus Chip where
  transfer := transfer
  maxWrite _ := none
  release chip := chip
  selectUpper _ chip := chip
  delay _ chip := chip

end Emulation.Chip

end NorFlash
