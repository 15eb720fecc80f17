/-!
The capability flags of a part, as a set of nine bits.
-/
namespace NorFlash

structure Features where
  bits : UInt16
  deriving DecidableEq, Repr, Inhabited

namespace Features

def none : Features := ⟨0⟩

/-- Erases 4 KiB sectors. -/
def smallSector : Features := ⟨0x001⟩

/-- Erases 32 KiB blocks. -/
def mediumBlock : Features := ⟨0x002⟩

/-- The busy state also has to be polled through the flag status register. -/
def flagStatus : Features := ⟨0x004⟩

/-- Programs single bytes or words. -/
def wordProgram : Features := ⟨0x008⟩

def quadProgram : Features := ⟨0x010⟩

def quadOutputRead : Features := ⟨0x020⟩

def dualOutputRead : Features := ⟨0x040⟩

def quadIoRead : Features := ⟨0x080⟩

def dualIoRead : Features := ⟨0x100⟩

def union (a b : Features) : Features :=
  ⟨a.bits ||| b.bits⟩

instance : Union Features := ⟨union⟩

/-- Every read mode. -/
def allReads : Features :=
  quadOutputRead ∪ dualOutputRead ∪ quadIoRead ∪ dualIoRead

/-- Every flag there is. -/
def all : Features := ⟨0x1ff⟩

def contains (a b : Features) : Bool :=
  a.bits &&& b.bits = b.bits

def intersects (a b : Features) : Bool :=
  a.bits &&& b.bits ≠ 0

/-- The set with these bits, if every one of them is a flag. -/
def ofBits? (bits : UInt16) : Option Features :=
  if bits &&& all.bits = bits then some ⟨bits⟩ else .none

/-- The set with those of the bits that are flags. -/
def ofKnownBits (bits : UInt16) : Features :=
  ⟨bits &&& all.bits⟩

def hasQuad (a : Features) : Bool :=
  a.intersects (quadOutputRead ∪ quadIoRead ∪ quadProgram)

end Features

end NorFlash
