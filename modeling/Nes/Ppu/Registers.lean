/-!
# Control and mask

The two registers that say how the picture unit works (`Control`) and what it shows (`Mask`), and
the three flags of its status register (`Status`).
-/

namespace Nes.Ppu

/-- The control register. -/
structure Control where
  /-- Its bits. -/
  bits : UInt8 := 0
deriving DecidableEq, Repr, Inhabited

namespace Control

/-- How far the address moves on after each access to memory. -/
def increment (c : Control) : Nat := if c.bits &&& 0x04 != 0 then 32 else 1

/-- Where the patterns of the background start. -/
def backgroundTable (c : Control) : Nat := if c.bits &&& 0x10 != 0 then 0x1000 else 0

/-- Where the patterns of sprites of height 8 start. -/
def spriteTable (c : Control) : Nat := if c.bits &&& 0x08 != 0 then 0x1000 else 0

/-- The height of sprites. -/
def spriteHeight (c : Control) : Nat := if c.bits &&& 0x20 != 0 then 16 else 8

theorem spriteHeight_cases (c : Control) : c.spriteHeight = 8 ∨ c.spriteHeight = 16 := by
  unfold spriteHeight
  split
  · exact Or.inr rfl
  · exact Or.inl rfl

/-- The processor is interrupted when the vertical blank starts. -/
def nmiEnabled (c : Control) : Bool := c.bits &&& 0x80 != 0

end Control

/-- The mask register. -/
structure Mask where
  /-- Its bits. -/
  bits : UInt8 := 0
deriving DecidableEq, Repr, Inhabited

namespace Mask

/-- Colours lose their hue. -/
def greyscale (m : Mask) : Bool := m.bits &&& 0x01 != 0

/-- The background is shown in the leftmost eight columns too. -/
def backgroundLeft (m : Mask) : Bool := m.bits &&& 0x02 != 0

/-- Sprites are shown in the leftmost eight columns too. -/
def spritesLeft (m : Mask) : Bool := m.bits &&& 0x04 != 0

/-- The background is shown. -/
def background (m : Mask) : Bool := m.bits &&& 0x08 != 0

/-- Sprites are shown. -/
def sprites (m : Mask) : Bool := m.bits &&& 0x10 != 0

/-- Something is shown. -/
def rendering (m : Mask) : Bool := m.background || m.sprites

/-- The background is shown in a column. -/
def showsBackground (m : Mask) (column : Nat) : Bool :=
  m.background && (decide (8 ≤ column) || m.backgroundLeft)

/-- Sprites are shown in a column. -/
def showsSprites (m : Mask) (column : Nat) : Bool :=
  m.sprites && (decide (8 ≤ column) || m.spritesLeft)

end Mask

/-- The flags of the status register. -/
structure Status where
  /-- More than eight sprites lie on a line. -/
  overflow : Bool := false
  /-- The first sprite has met the background. -/
  zeroHit : Bool := false
  /-- The vertical blank has started and was not yet noticed. -/
  vblank : Bool := false
deriving DecidableEq, Repr, Inhabited

/-- The flags in bits 5 to 7. -/
def Status.toByte (s : Status) : UInt8 :=
  (if s.overflow then 0x20 else 0) ||| (if s.zeroHit then 0x40 else 0) |||
    (if s.vblank then 0x80 else 0)

end Nes.Ppu
