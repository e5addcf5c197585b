import Nes.Cartridge.Header
import Nes.Hexadecimal

/-!
# Cartridges

`Cartridge.ofBytes` cuts an image into its parts: the header, a trainer of 512 bytes if the header
announces one, the program, the patterns, and what is left.  It fails exactly when the header cannot
be read, a part does not fit the image, or there is no program.
-/

namespace Nes

/-- A cartridge, as its image describes it. -/
structure Cartridge where
  /-- The program. -/
  prgRom : Array UInt8
  /-- The patterns, or zeroed pattern memory. -/
  chr : Array UInt8
  /-- The patterns are memory. -/
  chrIsRam : Bool
  /-- The trainer. -/
  trainer : Option (Array UInt8)
  /-- The wiring of the nametables. -/
  mirroring : Mirroring
  /-- The number of the board. -/
  mapperId : Nat
  /-- The variant of the board. -/
  submapper : Nat
  /-- The television system. -/
  tvSystem : Cartridge.TvSystem
  /-- The dialect of the header. -/
  dialect : Cartridge.Dialect
  /-- Work memory keeps its content without power. -/
  battery : Bool
  /-- The length of the work memory that the header asks for. -/
  prgRamSize : Nat
  /-- What follows the patterns, in the newer dialect. -/
  miscRom : Array UInt8
deriving DecidableEq, Repr

namespace Cartridge

/-- The length of a trainer. -/
def trainerLength : Nat := 512

/-- The `length` bytes at `offset`, if the image has them all. -/
def part (data : Array UInt8) (which : Part) (offset length : Nat) :
    Except FormatError (Array UInt8) :=
  if offset + length ≤ data.size then .ok (data.extract offset (offset + length))
  else .error (.missing which length offset data.size)

/-- The cartridge that an image describes. -/
def ofBytes (data : Array UInt8) : Except FormatError Cartridge := do
  let h ← Header.ofBytes data
  let trainerSize := if h.hasTrainer then trainerLength else 0
  let trainer ←
    if h.hasTrainer then some <$> part data .trainer Header.length trainerLength else pure none
  let prgStart := Header.length + trainerSize
  let prgRom ← part data .prgRom prgStart h.prgSize
  if h.prgSize = 0 then throw .noPrgRom
  let chrStart := prgStart + h.prgSize
  let chr ←
    if h.chrSize = 0 then pure (Array.replicate h.chrRamSize 0)
    else part data .chrRom chrStart h.chrSize
  let miscRom := match h.dialect with
    | .nes2 => data.extract (chrStart + h.chrSize) data.size
    | .iNes => #[]
  return {
    prgRom, chr, trainer, miscRom
    chrIsRam := h.chrSize == 0
    mirroring := h.mirroring
    mapperId := h.mapperId
    submapper := h.submapper
    tvSystem := h.tvSystem
    dialect := h.dialect
    battery := h.battery
    prgRamSize := h.prgRamSize }

end Cartridge

/-- What is wrong with an image, in words. -/
def Cartridge.FormatError.message : FormatError → String
  | tooShort size => s!"image is {size} bytes, shorter than the 16-byte header"
  | badMagic found =>
    let bytes := ", ".intercalate (found.map Hexadecimal.byte)
    "bad magic [" ++ bytes ++ "], expected \"NES\\x1A\""
  | sizeOverflow exponent multiplier => s!"ROM size 2^{exponent}*{multiplier} overflows"
  | missing part length offset size =>
    s!"{part.name} needs {length} bytes at offset {offset}, image has {size}"
  | noPrgRom => "header declares no PRG ROM"

end Nes
