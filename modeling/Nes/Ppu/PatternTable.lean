import Nes.Ppu.Basic

/-!
# Pattern tables

The patterns of a cartridge as pictures: `patternTable` lays the 256 tiles of one table out in a
square of 128 by 128 pixels, `renderTables` puts both tables side by side in chosen colours.
-/

namespace Nes.Ppu

variable {γ : Type} [PictureBus γ]

/-- Black, dark grey, light grey and white. -/
def greys : List UInt32 := [rgb 0x0F false, rgb 0x00 false, rgb 0x10 false, rgb 0x30 false]

/-- The pixels of a tile, row by row. -/
def decodeTile (tile : List UInt8) : List (List UInt8) :=
  (List.range 8).map fun y =>
    (List.range 8).map fun x => Tile.pixel (tile.getD y 0) (tile.getD (y + 8) 0) x

/-- The bytes of a tile of the first or second table, as the cartridge shows them now. -/
@[specialize] def tileBytes (cart : γ) (table index : Nat) : List UInt8 :=
  (List.range Tile.length).map fun k =>
    PictureBus.chrRead cart (UInt16.ofNat (table % 2 * 0x1000 + index * Tile.length + k))

/-- The sixteen tiles of a row, as eight rows of pixels. -/
@[specialize] def tileRow (cart : γ) (table row : Nat) : List (List UInt8) :=
  ((List.range 16).map fun column => decodeTile (tileBytes cart table (row * 16 + column))).foldr
    (List.zipWith (· ++ ·)) (List.replicate 8 [])

/-- The pixels of a table, row by row. -/
@[specialize] def patternTable (cart : γ) (table : Nat) : List (List UInt8) :=
  (List.range 16).flatMap (tileRow cart table)

/-- The colour that a pixel has in a list of four. -/
def colourOf (palette : List UInt32) (pixel : UInt8) : UInt32 := palette.getD (pixel.toNat % 4) 0

/-- Both tables side by side, row by row. -/
@[specialize] def renderTables (cart : γ) (palette : List UInt32) : List UInt32 :=
  (List.zipWith (· ++ ·) (patternTable cart 0) (patternTable cart 1)).flatMap
    (·.map (colourOf palette))

end Nes.Ppu
