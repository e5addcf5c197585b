import Nes.Ppu.Beam
import Nes.Ppu.Registers
import Nes.Ppu.Tile

/-!
# Sprites

Sprite memory describes 64 sprites by four bytes each.  The first eight that lie on a line are drawn
into a row of 256 pixels (`SpriteLine.paint`); where two overlap, the earlier one is seen.
-/

namespace Nes.Ppu

/-- Sprite memory. -/
abbrev SpriteMemory := Vector UInt8 256

/-- A sprite. -/
structure Sprite where
  /-- The line above its first one. -/
  y : UInt8
  /-- The number of its tile. -/
  tile : UInt8
  /-- Its palette, its place behind the background, and its flips. -/
  attributes : UInt8
  /-- Its leftmost column. -/
  x : UInt8
deriving DecidableEq, Repr, Inhabited

namespace Sprite

/-- A sprite of sprite memory. -/
def ofMemory (memory : SpriteMemory) (i : Fin 64) : Sprite where
  y := memory[4 * i.val]
  tile := memory[4 * i.val + 1]
  attributes := memory[4 * i.val + 2]
  x := memory[4 * i.val + 3]

/-- The sprite has a row for a line. -/
def coversLine (s : Sprite) (height line : Nat) : Bool :=
  decide (s.y.toNat ≤ line ∧ line < s.y.toNat + height)

/-- The sprite is upside down. -/
def flippedY (s : Sprite) : Bool := s.attributes &&& 0x80 != 0

/-- The sprite is mirrored. -/
def flippedX (s : Sprite) : Bool := s.attributes &&& 0x40 != 0

/-- The background is seen before the sprite. -/
def behind (s : Sprite) : Bool := s.attributes &&& 0x20 != 0

/-- The sprite's palette. -/
def palette (s : Sprite) : UInt8 := s.attributes &&& 3

/-- The row of the sprite's patterns that is shown on a line it covers. -/
def row (s : Sprite) (height line : Nat) : Nat :=
  let row := line - s.y.toNat
  if s.flippedY then height - 1 - row else row

/-- Where the low bits of a row of the sprite's patterns lie.  Sprites of height 16 have two tiles,
and choose their table themselves. -/
def patternAddr (s : Sprite) (control : Control) (row : Nat) : Nat :=
  if control.spriteHeight = 8 then control.spriteTable + s.tile.toNat * 16 + row
  else
    s.tile.toNat % 2 * 0x1000 + (s.tile.toNat / 2 * 2 + row / 8) * 16 + row % 8

/-- The pixel in a column of the sprite, from the two bytes of its row. -/
def pixel (s : Sprite) (low high : UInt8) (column : Nat) : UInt8 :=
  Tile.pixel low high (if s.flippedX then 7 - column else column)

end Sprite

/-- What sprites show in a column of a line. -/
structure SpritePixel where
  /-- The pixel; zero shows nothing. -/
  pixel : UInt8 := 0
  /-- Its palette. -/
  palette : UInt8 := 0
  /-- The background is seen before it. -/
  behind : Bool := false
  /-- It belongs to the first sprite. -/
  isFirst : Bool := false
deriving DecidableEq, Repr, Inhabited

/-- What sprites show on a line. -/
abbrev SpriteLine := Vector SpritePixel 256

namespace SpriteLine

/-- A line without sprites. -/
def empty : SpriteLine := .replicate 256 {}

/-- Draws the columns of a sprite from `column` on, where no earlier sprite shows. -/
def paintFrom (shown : SpriteLine) (s : Sprite) (isFirst : Bool) (low high : UInt8) (column : Nat) :
    SpriteLine :=
  if column < 8 then
    if h : s.x.toNat + column < 256 then
      let pixel := s.pixel low high column
      let shown :=
        if pixel == 0 || shown[s.x.toNat + column].pixel != 0 then shown
        else shown.set (s.x.toNat + column)
          { pixel, palette := s.palette, behind := s.behind, isFirst }
      paintFrom shown s isFirst low high (column + 1)
    else shown
  else shown
termination_by 8 - column

/-- Draws a sprite whose row has the given two bytes, where no earlier sprite shows. -/
def paint (shown : SpriteLine) (s : Sprite) (isFirst : Bool) (low high : UInt8) : SpriteLine :=
  paintFrom shown s isFirst low high 0

end SpriteLine

/-- The numbers of the sprites that cover a line, in order. -/
def spritesOn (memory : SpriteMemory) (height line : Nat) : List (Fin 64) :=
  (List.finRange 64).filter fun i => (Sprite.ofMemory memory i).coversLine height line

end Nes.Ppu
