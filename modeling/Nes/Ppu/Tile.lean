/-!
# Tiles

A tile of 8 by 8 pixels takes 16 bytes: eight rows of the low bits of its pixels, then eight rows of
the high bits, the leftmost pixel in bit 7.
-/

namespace Nes.Ppu.Tile

/-- The bytes of a tile. -/
def length : Nat := 16

/-- The pixel of a row in a column, counted from the left, from the row's two bytes. -/
def pixel (low high : UInt8) (column : Nat) : UInt8 :=
  let bit := UInt8.ofNat (7 - column)
  (high >>> bit &&& 1) <<< 1 ||| (low >>> bit &&& 1)

end Nes.Ppu.Tile
