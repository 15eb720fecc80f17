import NorFlash.Settings
import NorFlash.Toml.Document

/-!
Platform settings described in TOML. Keys that are missing keep their defaults and unknown keys
have no effect; a record is written as a table or as an array of its fields in order.
-/
namespace NorFlash

namespace Toml.Value

/-- Looks up the fields of a record by name. A date has none of them. -/
def fields? (names : List String) : Value → Option (String → Option Value)
  | .table _ entries => some (Entries.get? entries)
  | .array items => some fun name => items[names.idxOf name]?
  | .tables items => some fun name => (items[names.idxOf name]?).map (.table .header)
  | .dateTime _ => some fun _ => none
  | _ => none

def truth? : Value → Option Bool
  | .truth b => some b
  | _ => none

def natBelow? (limit : Nat) : Value → Option Nat
  | .integer n => if 0 ≤ n ∧ n < limit then some n.toNat else none
  | _ => none

def word? (v : Value) : Option UInt32 :=
  UInt32.ofNat <$> v.natBelow? UInt32.size

def byte? (v : Value) : Option UInt8 :=
  UInt8.ofNat <$> v.natBelow? UInt8.size

def size? (v : Value) : Option Nat :=
  v.natBelow? UInt64.size

def isEmpty : Value → Bool
  | .table _ entries => entries.isEmpty
  | .array items => items.isEmpty
  | .tables items => items.isEmpty
  | _ => false

/-- One of several names: as a text, or as the only key of a table, with nothing for its value. -/
def choice? {α : Type} (ofName? : String → Option α) : Value → Option α
  | .text name => ofName? name
  | .table _ [(name, v)] => if v.isEmpty then ofName? name else none
  | _ => none

end Toml.Value

open Toml (Value)

/-- The value of a field, or its default if the field is missing. -/
def fieldOr {α : Type} (fields : String → Option Value) (name : String)
    (decode? : Value → Option α) (default : α) : Option α :=
  match fields name with
  | none => some default
  | some v => decode? v

def Region.ofToml? (v : Value) : Option Region := do
  let fields ← v.fields? ["offset", "length"]
  return ⟨← (← fields "offset").size?, ← (← fields "length").size?⟩

def SpiSettings.ofToml? (v : Value) : Option SpiSettings := do
  let fields ← v.fields? ["base", "freq_hz", "cs", "mode"]
  let d : SpiSettings := {}
  return {
    base := ← fieldOr fields "base" Value.size? d.base
    frequency := ← fieldOr fields "freq_hz" Value.word? d.frequency
    chipSelect := ← fieldOr fields "cs" Value.byte? d.chipSelect
    mode := ← fieldOr fields "mode" Value.byte? d.mode }

def FlashSettings.ofToml? (v : Value) : Option FlashSettings := do
  let fields ← v.fields? ["prog_timeout_ms", "erase_timeout_ms", "use_4k_sectors", "read_cmd",
    "write_cmd", "dual_flash", "addressing"]
  let d : FlashSettings := {}
  return {
    programTimeout := ← fieldOr fields "prog_timeout_ms" Value.word? d.programTimeout
    eraseTimeout := ← fieldOr fields "erase_timeout_ms" Value.word? d.eraseTimeout
    smallSectors := ← fieldOr fields "use_4k_sectors" Value.truth? d.smallSectors
    readMode := ← fieldOr fields "read_cmd" (Value.choice? ReadMode.ofName?) d.readMode
    programMode := ← fieldOr fields "write_cmd" (Value.choice? ProgramMode.ofName?) d.programMode
    wiring := ← fieldOr fields "dual_flash" (Value.choice? Wiring.ofName?) d.wiring
    addressing := ← fieldOr fields "addressing" (Value.choice? Addressing.ofName?) d.addressing }

def StorageSettings.ofToml? (v : Value) : Option StorageSettings := do
  let fields ← v.fields? ["page_size", "scratch", "fip"]
  let d : StorageSettings := {}
  return {
    pageSize := ← fieldOr fields "page_size" Value.size? d.pageSize
    scratch := ← fieldOr fields "scratch" Region.ofToml? d.scratch
    package := ← fieldOr fields "fip" Region.ofToml? d.package }

namespace PlatformSettings

def ofEntries? (entries : Toml.Entries) : Option PlatformSettings := do
  let fields := entries.get?
  let d : PlatformSettings := {}
  return {
    spi := ← fieldOr fields "spi" SpiSettings.ofToml? d.spi
    flash := ← fieldOr fields "flash" FlashSettings.ofToml? d.flash
    storage := ← fieldOr fields "storage" StorageSettings.ofToml? d.storage }

/-- The settings that a TOML text describes, unless it is malformed or a value does not fit. -/
def parse? (text : String) : Option PlatformSettings := do
  ofEntries? (← Toml.Document.parse? text)

end PlatformSettings

end NorFlash
