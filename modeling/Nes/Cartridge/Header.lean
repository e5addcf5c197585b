import Nes.Mirroring

/-!
# Image headers

A cartridge image starts with a header of 16 bytes in one of two dialects.  `Header.ofBytes` reads
it: what follows the header and how long each part is, the board's number, its mirroring and the
television system it was made for.

Sizes are counted in units of 16 KiB for programs and 8 KiB for patterns.  The newer dialect has
twelve bits for the count, and a second form, `2 ^ e * (2 * m + 1)` bytes, whose value may not
fit a 64-bit size (`romSize`).
-/

namespace Nes.Cartridge

/-- The dialect of a header. -/
inductive Dialect
  /-- The older dialect. -/
  | iNes
  /-- The newer dialect, marked by bits 2 and 3 of byte 7. -/
  | nes2
deriving DecidableEq, Repr, Inhabited

/-- The television system that a cartridge was made for. -/
inductive TvSystem
  /-- Sixty pictures a second. -/
  | ntsc
  /-- Fifty pictures a second. -/
  | pal
deriving DecidableEq, Repr, Inhabited

namespace TvSystem

/-- The cycles per second of the processor. -/
def cpuHz : TvSystem → Nat
  | ntsc => 1789773
  | pal => 1662607

/-- The pictures per second. -/
def frameRate : TvSystem → Nat
  | ntsc => 60
  | pal => 50

end TvSystem

/-- The parts of an image after its header. -/
inductive Part
  /-- A program of 512 bytes that is loaded into work memory. -/
  | trainer
  /-- The program. -/
  | prgRom
  /-- The patterns. -/
  | chrRom
deriving DecidableEq, Repr

/-- The name of a part. -/
def Part.name : Part → String
  | trainer => "trainer"
  | prgRom => "PRG ROM"
  | chrRom => "CHR ROM"

/-- What can be wrong with an image. -/
inductive FormatError
  /-- The image has fewer bytes than a header. -/
  | tooShort (size : Nat)
  /-- The first four bytes are not those of a header. -/
  | badMagic (found : List UInt8)
  /-- A size of `2 ^ exponent * multiplier` bytes does not fit 64 bits. -/
  | sizeOverflow (exponent multiplier : Nat)
  /-- A part of `length` bytes at `offset` does not fit an image of `size` bytes. -/
  | missing (part : Part) (length offset size : Nat)
  /-- The size of the program is zero. -/
  | noPrgRom
deriving DecidableEq, Repr

/-- What a header says. -/
structure Header where
  /-- The dialect it is written in. -/
  dialect : Dialect
  /-- The length of the program in bytes. -/
  prgSize : Nat
  /-- The length of the patterns in bytes; zero for a cartridge with pattern memory. -/
  chrSize : Nat
  /-- The length of the pattern memory, for a cartridge that has some. -/
  chrRamSize : Nat
  /-- A trainer comes before the program. -/
  hasTrainer : Bool
  /-- The wiring of the nametables. -/
  mirroring : Mirroring
  /-- The number of the board. -/
  mapperId : Nat
  /-- The variant of the board. -/
  submapper : Nat
  /-- The television system. -/
  tvSystem : TvSystem
  /-- Work memory keeps its content without power. -/
  battery : Bool
  /-- The length of the work memory. -/
  prgRamSize : Nat
deriving DecidableEq, Repr

namespace Header

/-- The length of a header. -/
def length : Nat := 16

/-- The first four bytes of every image. -/
def magic : List UInt8 := [0x4E, 0x45, 0x53, 0x1A]

/-- The unit in which programs are counted. -/
def prgUnit : Nat := 16 * 1024

/-- The unit in which patterns are counted. -/
def chrUnit : Nat := 8 * 1024

/-- The work memory assumed, and the unit in which the older dialect counts it. -/
def prgRamUnit : Nat := 8 * 1024

/-- Sizes are numbers of 64 bits. -/
def sizeBound : Nat := 1 <<< 64

/-- The size that the newer dialect gives by a byte and four more bits `msb`: a count of units, or,
when all four bits are set, an odd multiple of a power of two. -/
def romSize (lsb msb : UInt8) (unit : Nat) : Except FormatError Nat :=
  if msb == 0x0F then
    let exponent := lsb.toNat / 4
    let multiplier := 2 * (lsb.toNat % 4) + 1
    let size := multiplier <<< exponent
    if size < sizeBound then .ok size else .error (.sizeOverflow exponent multiplier)
  else .ok ((msb.toNat * 256 + lsb.toNat) * unit)

/-- A memory size written as a shift of 64 bytes, with zero for none. -/
def shiftedSize (shift : UInt8) : Nat := if shift == 0 then 0 else 64 <<< shift.toNat

/-- The header that an image starts with. -/
def ofBytes (data : Array UInt8) : Except FormatError Header := do
  if data.size < length then throw (.tooShort data.size)
  let found := (data.extract 0 4).toList
  if found ≠ magic then throw (.badMagic found)
  let byte (i : Nat) : UInt8 := data.getD i 0
  let flags6 := byte 6
  let flags7 := byte 7
  let dialect : Dialect := if flags7 &&& 0x0C == 0x08 then .nes2 else .iNes
  let prgSize ← match dialect with
    | .iNes => pure ((byte 4).toNat * prgUnit)
    | .nes2 => romSize (byte 4) (byte 9 &&& 0x0F) prgUnit
  let chrSize ← match dialect with
    | .iNes => pure ((byte 5).toNat * chrUnit)
    | .nes2 => romSize (byte 5) (byte 9 >>> 4) chrUnit
  let number := flags7.toNat / 16 * 16 + flags6.toNat / 16
  let mapperId := match dialect with
    | .nes2 => (byte 8 &&& 0x0F).toNat * 256 + number
    -- Text that old tools left in the last bytes has spoilt the high digit as well.
    | .iNes => if (data.extract 12 16).any (· != 0) then number % 16 else number
  let mirroring : Mirroring :=
    if flags6 &&& 0x08 != 0 then
      if mapperId == 2 && flags6 &&& 0x01 == 0 then .oneScreenLower else .fourScreen
    else if flags6 &&& 0x01 != 0 then .vertical else .horizontal
  return {
    dialect, prgSize, chrSize, mapperId, mirroring
    chrRamSize := match dialect with
      | .nes2 => if byte 11 &&& 0x0F != 0 then shiftedSize (byte 11 &&& 0x0F) else chrUnit
      | .iNes => chrUnit
    hasTrainer := flags6 &&& 0x04 != 0
    submapper := match dialect with
      | .nes2 => (byte 8 >>> 4).toNat
      | .iNes => 0
    tvSystem := match dialect with
      | .nes2 => if byte 12 &&& 0x03 == 1 then .pal else .ntsc
      | .iNes => if byte 9 &&& 0x01 != 0 then .pal else .ntsc
    battery := flags6 &&& 0x02 != 0
    prgRamSize := match dialect with
      | .nes2 => shiftedSize (max (byte 10 &&& 0x0F) (byte 10 >>> 4))
      | .iNes => if byte 8 == 0 then prgRamUnit else (byte 8).toNat * prgRamUnit }

end Header

end Nes.Cartridge
