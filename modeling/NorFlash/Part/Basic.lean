import NorFlash.Part.Features

/-!
A part as the driver knows it: its name, the bytes it answers a read-ID command with, and the
layout of its array.
-/
namespace NorFlash

namespace Manufacturer

def spansion : UInt8 := 0x01
def atmel : UInt8 := 0x1f
def eon : UInt8 := 0x1c
def gigaDevice : UInt8 := 0xc8
def issi : UInt8 := 0x9d
def macronix : UInt8 := 0xc2
def micron : UInt8 := 0x20
def sanyo : UInt8 := 0x62
def sst : UInt8 := 0xbf
def winbond : UInt8 := 0xef

def name (id : UInt8) : String :=
  if id = spansion then "Spansion"
  else if id = atmel then "Atmel"
  else if id = eon then "EON"
  else if id = gigaDevice then "GigaDevice"
  else if id = issi then "ISSI"
  else if id = macronix then "Macronix"
  else if id = micron then "Micron"
  else if id = sanyo then "Sanyo"
  else if id = sst then "SST"
  else if id = winbond then "Winbond"
  else "Unknown"

end Manufacturer

structure Part where
  name : String
  manufacturer : UInt8
  device : UInt16
  /-- Three bytes that tell apart the parts of one device code. -/
  extension : List UInt8
  /-- How many of the six ID bytes identify the part; with none it is never matched. -/
  idLength : Nat
  sectorSize : UInt32
  sectors : UInt32
  pageSize : UInt32 := 256
  features : Features
  deriving DecidableEq, Repr, Inhabited

namespace Part

/-- Six bytes are asked for when a part is identified. -/
def maxIdLength : Nat := 6

private def jedecManufacturer (jedec : UInt32) : UInt8 :=
  (jedec >>> 16).toUInt8

/-- A part with an extended ID of two bytes. Zero stands for no extended ID: such a part is
known by the three JEDEC bytes alone. -/
def ofJedec (name : String) (jedec : UInt32) (ext : UInt16) (sectorSize sectors : UInt32)
    (features : Features) : Part where
  name := name
  manufacturer := jedecManufacturer jedec
  device := jedec.toUInt16
  extension := [(ext >>> 8).toUInt8, ext.toUInt8, 0]
  idLength := if jedec = 0 then 0 else if ext ≠ 0 then 5 else 3
  sectorSize := sectorSize
  sectors := sectors
  features := features

/-- A part known by all six ID bytes. -/
def ofLongJedec (name : String) (jedec ext sectorSize sectors : UInt32) (features : Features) :
    Part where
  name := name
  manufacturer := jedecManufacturer jedec
  device := jedec.toUInt16
  extension := [(ext >>> 16).toUInt8, (ext >>> 8).toUInt8, ext.toUInt8]
  idLength := maxIdLength
  sectorSize := sectorSize
  sectors := sectors
  features := features

/-- All ID bytes, also those that do not identify the part. -/
def idBytes (part : Part) : List UInt8 :=
  part.manufacturer :: (part.device >>> 8).toUInt8 :: part.device.toUInt8 :: part.extension

/-- The ID bytes that identify the part. -/
def id (part : Part) : List UInt8 :=
  part.idBytes.take part.idLength

/-- The first two bytes of the extension as one number. -/
def extendedId (part : Part) : UInt16 :=
  match part.extension with
  | high :: low :: _ => high.toUInt16 <<< 8 ||| low.toUInt16
  | _ => 0

/-- Bytes of a single die. -/
def size (part : Part) : Nat :=
  part.sectorSize.toNat * part.sectors.toNat

/-- Whether a read-ID response is that of this part. -/
def isIdentifiedBy (part : Part) (response : List UInt8) : Bool :=
  part.idLength ≠ 0 && part.id.isPrefixOf response

def vendor (part : Part) : String :=
  Manufacturer.name part.manufacturer

end Part

end NorFlash
