/-!
Trial data: a pattern in which each byte tells its address, and a stream of pseudo-random bytes.
-/
namespace NorFlash.Bench

/-- A byte that tells the address it stands at. -/
def patternByte (address : Nat) : UInt8 :=
  UInt8.ofNat (address ^^^ (address >>> 8) ^^^ (address >>> 16))

def patternFrom (left address : Nat) (done : ByteArray) : ByteArray :=
  match left with
  | 0 => done
  | left + 1 => patternFrom left (address + 1) (done.push (patternByte (address % UInt32.size)))

/-- The pattern of `length` addresses from `address` on. -/
def pattern (address length : Nat) : ByteArray :=
  patternFrom length address .empty

def noiseFrom (left state : Nat) (done : ByteArray) : ByteArray :=
  match left with
  | 0 => done
  | left + 1 =>
    let state := (state * 1103515245 + 12345) % 0x80000000
    noiseFrom left state (done.push (UInt8.ofNat (state / 0x10000)))

/-- `length` bytes of a linear congruential generator. -/
def noise (seed length : Nat) : ByteArray :=
  noiseFrom length (seed % 0x80000000) .empty

end NorFlash.Bench
