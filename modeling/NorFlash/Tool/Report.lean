import NorFlash.Tool.Session

/-!
Requests that only report: what the driver derives from a part, and the table of known parts.
-/
namespace NorFlash.Tool

/-- Scans the part and prints what the driver derived. -/
def probe (target : Target) (settings : PlatformSettings) : Run Unit := do
  let (geometry, flash) ← Flash.openTarget target settings
  let part := geometry.part
  let id := part.id.map fun byte => (Text.Hex.ofByte byte).toUpper
  Run.print "Found flash chip:"
  Run.print ("  Vendor:      " ++ part.vendor)
  Run.print ("  Name:        " ++ part.name)
  Run.print ("  Size:        " ++ toString geometry.size ++ " bytes (" ++
    Text.size geometry.size ++ ")")
  Run.print ("  ID:          [" ++ ", ".intercalate id ++ "]")
  Run.print ("  Page size:   " ++ toString geometry.pageSize)
  Run.print ("  Erase:       " ++ Text.Hex.prefixedByte geometry.eraseCommand.byte ++ " / " ++
    Text.size geometry.eraseSize)
  Run.print ("  Read:        " ++ Text.Hex.prefixedByte geometry.readMode.opcode.byte ++ " (" ++
    toString geometry.readMode.dummyBytes ++ " dummy)")
  Run.print ("  Program:     " ++ Text.Hex.prefixedByte geometry.programMode.opcode.byte)
  Run.print ("  Address:     " ++ toString geometry.width.bytes ++ " bytes")
  if let some bank := flash.currentBank? then
    Run.print ("  Bank:        " ++ toString bank.toNat)

def partLine (part : Part) : String :=
  let id := part.id.map fun byte => (Text.Hex.ofByte byte).toUpper
  Text.left 12 part.vendor ++ " " ++ Text.left 20 part.name ++ " " ++
    Text.right 10 (Text.size part.size) ++ " " ++ Text.right 20 (" ".intercalate id)

/-- Prints the known parts, of all vendors or of those whose names contain a text. -/
def listChips (vendor : Option String) : Run Unit := do
  Run.print "Supported flash chips:"
  Run.print ""
  Run.print (Text.left 12 "Vendor" ++ " " ++ Text.left 20 "Name" ++ " " ++
    Text.right 10 "Size" ++ " " ++ Text.right 20 "ID")
  Run.print (Text.rule 66)
  for part in Part.table do
    if vendor.all (Text.containsIgnoringCase part.vendor) then
      Run.print (partLine part)

end NorFlash.Tool
