import NorFlash.Part.Basic

/-!
The parts that can be identified. A read-ID response is matched in table order, so an entry that
is found by more ID bytes has to stand ahead of an entry that shares its first bytes.
-/
namespace NorFlash.Part

private def fullQuad : Features :=
  .allReads ∪ .quadProgram

private def fullQuadSmall : Features :=
  fullQuad ∪ .smallSector

private def fullQuadFlagged : Features :=
  fullQuadSmall ∪ .flagStatus

private def outputReads : Features :=
  .quadOutputRead ∪ .dualOutputRead

private def smallWord : Features :=
  .smallSector ∪ .wordProgram

def atmelParts : List Part := [
  .ofJedec "at45db011d" 0x1f2200 0 0x10000 4 .smallSector,
  .ofJedec "at45db021d" 0x1f2300 0 0x10000 8 .smallSector,
  .ofJedec "at45db041d" 0x1f2400 0 0x10000 8 .smallSector,
  .ofJedec "at45db081d" 0x1f2500 0 0x10000 16 .smallSector,
  .ofJedec "at45db161d" 0x1f2600 0 0x10000 32 .smallSector,
  .ofJedec "at45db321d" 0x1f2700 0 0x10000 64 .smallSector,
  .ofJedec "at45db641d" 0x1f2800 0 0x10000 128 .smallSector,
  .ofJedec "at25df321a" 0x1f4701 0 0x10000 64 .smallSector,
  .ofJedec "at25df321" 0x1f4700 0 0x10000 64 .smallSector,
  .ofJedec "at26df081a" 0x1f4501 0 0x10000 16 .smallSector]

def eonParts : List Part := [
  .ofJedec "en25q32b" 0x1c3016 0 0x10000 64 .none,
  .ofJedec "en25q64" 0x1c3017 0 0x10000 128 .smallSector,
  .ofJedec "en25q128b" 0x1c3018 0 0x10000 256 .none,
  .ofJedec "en25s64" 0x1c3817 0 0x10000 128 .none]

def gigaDeviceParts : List Part := [
  .ofJedec "gd25q64b" 0xc84017 0 0x10000 128 .smallSector,
  .ofJedec "gd25lq32" 0xc86016 0 0x10000 64 .smallSector]

def issiParts : List Part := [
  .ofJedec "is25lp032" 0x9d6016 0 0x10000 64 .none,
  .ofJedec "is25lp064" 0x9d6017 0 0x10000 128 .none,
  .ofJedec "is25lp128" 0x9d6018 0 0x10000 256 .none]

def macronixParts : List Part := [
  .ofJedec "mx25l2006e" 0xc22012 0 0x10000 4 .none,
  .ofJedec "mx25l4005" 0xc22013 0 0x10000 8 .none,
  .ofJedec "mx25l8005" 0xc22014 0 0x10000 16 .none,
  .ofJedec "mx25l1605d" 0xc22015 0 0x10000 32 .none,
  .ofJedec "mx25l3205d" 0xc22016 0 0x10000 64 .none,
  .ofJedec "mx25l6405d" 0xc22017 0 0x10000 128 .none,
  .ofJedec "mx25l12805" 0xc22018 0 0x10000 256 fullQuad,
  .ofJedec "mx25l25635f" 0xc22019 0 0x10000 512 fullQuad,
  .ofJedec "mx25l51235f" 0xc2201a 0 0x10000 1024 fullQuad,
  .ofJedec "mx25l12855e" 0xc22618 0 0x10000 256 fullQuad,
  .ofJedec "mx66u51235f" 0xc2253a 0 0x10000 1024 fullQuad,
  .ofJedec "mx66l1g45g" 0xc2201b 0 0x10000 2048 fullQuad]

def spansionParts : List Part := [
  .ofJedec "s25fl008a" 0x010213 0 0x10000 16 .none,
  .ofJedec "s25fl016a" 0x010214 0 0x10000 32 .none,
  .ofJedec "s25fl032a" 0x010215 0 0x10000 64 .none,
  .ofJedec "s25fl064a" 0x010216 0 0x10000 128 .none,
  .ofJedec "s25fl116k" 0x014015 0 0x10000 128 .none,
  .ofJedec "s25fl164k" 0x014017 0x0140 0x10000 128 .none,
  .ofJedec "s25fl128p_256k" 0x012018 0x0300 0x40000 64 fullQuad,
  .ofJedec "s25fl128p_64k" 0x012018 0x0301 0x10000 256 fullQuad,
  .ofJedec "s25fl032p" 0x010215 0x4d00 0x10000 64 fullQuad,
  .ofJedec "s25fl064p" 0x010216 0x4d00 0x10000 128 fullQuad,
  .ofJedec "s25fl128s_256k" 0x012018 0x4d00 0x40000 64 fullQuad,
  .ofJedec "s25fl128s_64k" 0x012018 0x4d01 0x10000 256 fullQuad,
  .ofJedec "s25fl256s_256k" 0x010219 0x4d00 0x40000 128 fullQuad,
  .ofJedec "s25fl256s_64k" 0x010219 0x4d01 0x10000 512 fullQuad,
  .ofLongJedec "s25fs256s_64k" 0x010219 0x4d0181 0x10000 512 fullQuadSmall,
  .ofLongJedec "s25fs512s" 0x010220 0x4d0081 0x20000 512 fullQuadSmall,
  .ofJedec "s25fl512s_256k" 0x010220 0x4d00 0x40000 256 fullQuad,
  .ofJedec "s25fl512s_64k" 0x010220 0x4d01 0x10000 1024 fullQuad,
  .ofJedec "s25fl512s_512k" 0x010220 0x4f00 0x40000 256 fullQuad]

def micronParts : List Part := [
  .ofJedec "m25p10" 0x202011 0 0x8000 4 .none,
  .ofJedec "m25p20" 0x202012 0 0x10000 4 .none,
  .ofJedec "m25p40" 0x202013 0 0x10000 8 .none,
  .ofJedec "m25p80" 0x202014 0 0x10000 16 .none,
  .ofJedec "m25p16" 0x202015 0 0x10000 32 .none,
  .ofJedec "m25pE16" 0x208015 0x1000 0x10000 32 .none,
  .ofJedec "m25pX16" 0x207115 0x1000 0x10000 32 outputReads,
  .ofJedec "m25p32" 0x202016 0 0x10000 64 .none,
  .ofJedec "m25p64" 0x202017 0 0x10000 128 .none,
  .ofJedec "m25p128" 0x202018 0 0x40000 64 .none,
  .ofJedec "m25pX64" 0x207117 0 0x10000 128 .smallSector,
  .ofJedec "n25q016a" 0x20bb15 0 0x10000 32 .smallSector,
  .ofJedec "n25q32" 0x20ba16 0 0x10000 64 fullQuadSmall,
  .ofJedec "n25q32a" 0x20bb16 0 0x10000 64 fullQuadSmall,
  .ofJedec "n25q64" 0x20ba17 0 0x10000 128 fullQuadSmall,
  .ofJedec "n25q64a" 0x20bb17 0 0x10000 128 fullQuadSmall,
  .ofJedec "n25q128" 0x20ba18 0 0x10000 256 fullQuad,
  .ofJedec "n25q128a" 0x20bb18 0 0x10000 256 fullQuad,
  .ofJedec "n25q256" 0x20ba19 0 0x10000 512 fullQuadSmall,
  .ofJedec "n25q256a" 0x20bb19 0 0x10000 512 fullQuadSmall,
  .ofJedec "n25q512" 0x20ba20 0 0x10000 1024 fullQuadFlagged,
  .ofJedec "n25q512a" 0x20bb20 0 0x10000 1024 fullQuadFlagged,
  .ofJedec "n25q1024" 0x20ba21 0 0x10000 2048 fullQuadFlagged,
  .ofJedec "n25q1024a" 0x20bb21 0 0x10000 2048 fullQuadFlagged,
  .ofJedec "mt25qu02g" 0x20bb22 0 0x10000 4096 fullQuadFlagged,
  .ofJedec "mt25ql02g" 0x20ba22 0 0x10000 4096 fullQuadFlagged]

def sstParts : List Part := [
  .ofJedec "sst25vf040b" 0xbf258d 0 0x10000 8 smallWord,
  .ofJedec "sst25vf080b" 0xbf258e 0 0x10000 16 smallWord,
  .ofJedec "sst25vf016b" 0xbf2541 0 0x10000 32 smallWord,
  .ofJedec "sst25vf032b" 0xbf254a 0 0x10000 64 smallWord,
  .ofJedec "sst25vf064c" 0xbf254b 0 0x10000 128 .smallSector,
  .ofJedec "sst25wf512" 0xbf2501 0 0x10000 1 smallWord,
  .ofJedec "sst25wf010" 0xbf2502 0 0x10000 2 smallWord,
  .ofJedec "sst25wf020" 0xbf2503 0 0x10000 4 smallWord,
  .ofJedec "sst25wf040" 0xbf2504 0 0x10000 8 smallWord,
  .ofJedec "sst25wf040b" 0x621613 0 0x10000 8 .smallSector,
  .ofJedec "sst25wf080" 0xbf2505 0 0x10000 16 smallWord]

def winbondParts : List Part := [
  .ofJedec "w25p80" 0xef2014 0 0x10000 16 .none,
  .ofJedec "w25p16" 0xef2015 0 0x10000 32 .none,
  .ofJedec "w25p32" 0xef2016 0 0x10000 64 .none,
  .ofJedec "w25x40" 0xef3013 0 0x10000 8 .smallSector,
  .ofJedec "w25x16" 0xef3015 0 0x10000 32 .smallSector,
  .ofJedec "w25x32" 0xef3016 0 0x10000 64 .smallSector,
  .ofJedec "w25x64" 0xef3017 0 0x10000 128 .smallSector,
  .ofJedec "w25q80bl" 0xef4014 0 0x10000 16 fullQuadSmall,
  .ofJedec "w25q16cl" 0xef4015 0 0x10000 32 fullQuadSmall,
  .ofJedec "w25q32bv" 0xef4016 0 0x10000 64 fullQuadSmall,
  .ofJedec "w25q64cv" 0xef4017 0 0x10000 128 fullQuadSmall,
  .ofJedec "w25q128bv" 0xef4018 0 0x10000 256 fullQuadSmall,
  .ofJedec "w25q256" 0xef4019 0 0x10000 512 fullQuadSmall,
  .ofJedec "w25q80bw" 0xef5014 0 0x10000 16 fullQuadSmall,
  .ofJedec "w25q16dw" 0xef6015 0 0x10000 32 fullQuadSmall,
  .ofJedec "w25q32dw" 0xef6016 0 0x10000 64 fullQuadSmall,
  .ofJedec "w25q64dw" 0xef6017 0 0x10000 128 fullQuadSmall,
  .ofJedec "w25q128fw" 0xef6018 0 0x10000 256 fullQuadSmall]

def table : List Part :=
  atmelParts ++ eonParts ++ gigaDeviceParts ++ issiParts ++ macronixParts ++
    spansionParts ++ micronParts ++ sstParts ++ winbondParts

/-- The first entry that a read-ID response identifies. -/
def findById? (response : List UInt8) : Option Part :=
  table.find? (·.isIdentifiedBy response)

/-- The entry with this name, in which only the case of ASCII letters may differ. -/
def findByName? (name : String) : Option Part :=
  table.find? (·.name.toLower = name.toLower)

end NorFlash.Part
