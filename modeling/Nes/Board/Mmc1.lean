import Nes.Mirroring

/-!
# The MMC1

The chip's registers are written one bit at a time.  A shift register collects the bits; a marker
bit in it moves towards bit 0 with every write and shows when the fifth bit has come (`Mmc1.write`).
The address of that fifth write selects the register that receives the five bits.  A write with bit
7 set starts over.
-/

namespace Nes.Board

/-- The state of an MMC1. -/
structure Mmc1 where
  /-- The bits received, above the marker. -/
  shift : UInt8 := 0x10
  /-- Bits 0 and 1 select the mirroring, bits 2 and 3 the program windows, bit 4 the pattern
  windows. -/
  control : UInt8 := 0x0C
  /-- The first pattern bank; its bit 4 selects the half of a large program. -/
  chr0 : UInt8 := 0
  /-- The second pattern bank. -/
  chr1 : UInt8 := 0
  /-- Bits 0 to 3 select the program bank, bit 4 disables work memory. -/
  prg : UInt8 := 0
deriving DecidableEq, Repr, Inhabited

namespace Mmc1

/-- The shift register with nothing but its marker. -/
def emptyShift : UInt8 := 0x10

/-- The register selected by bits 13 and 14 of the address receives `value`. -/
def load (s : Mmc1) (addr : UInt16) (value : UInt8) : Mmc1 :=
  match (addr >>> 13 &&& 3).toNat with
  | 0 => { s with control := value }
  | 1 => { s with chr0 := value }
  | 2 => { s with chr1 := value }
  | _ => { s with prg := value }

/-- A write to `$8000` or above. -/
def write (s : Mmc1) (addr : UInt16) (v : UInt8) : Mmc1 :=
  if v &&& 0x80 != 0 then { s with shift := emptyShift, control := s.control ||| 0x0C }
  else
    let shift := s.shift >>> 1 ||| (v &&& 1) <<< 4
    if s.shift &&& 1 != 0 then { s with shift := emptyShift }.load addr shift
    else { s with shift }

/-- Work memory answers. -/
def ramEnabled (s : Mmc1) : Bool := s.prg &&& 0x10 == 0

/-- The 16 KiB bank that an address shows, of a program of `prgSize` bytes. -/
def prgBank (s : Mmc1) (prgSize : Nat) (addr : UInt16) : Nat :=
  let half := if prgSize > 256 * 1024 then (s.chr0 &&& 0x10).toNat else 0
  let bank := (s.prg &&& 0x0F).toNat
  let upper := decide (addr ≥ 0xC000)
  half + match (s.control >>> 2 &&& 3).toNat, upper with
    | 0, false | 1, false => bank / 2 * 2
    | 0, true | 1, true => bank / 2 * 2 + 1
    | 2, false => 0
    | 2, true => bank
    | _, false => bank
    | _, true => 0x0F

/-- The 4 KiB pattern bank that an address shows. -/
def chrBank (s : Mmc1) (addr : UInt16) : Nat :=
  let upper := decide (addr ≥ 0x1000)
  if s.control &&& 0x10 == 0 then (s.chr0 &&& 0x1E).toNat + upper.toNat
  else if upper then s.chr1.toNat else s.chr0.toNat

/-- The nametables as the control register wires them. -/
def mirroring (s : Mmc1) : Mirroring :=
  match (s.control &&& 3).toNat with
  | 0 => .oneScreenLower
  | 1 => .oneScreenUpper
  | 2 => .vertical
  | _ => .horizontal

end Mmc1

end Nes.Board
