import Nes.Ppu.Basic

/-!
# Drawing

`Ppu.tick` moves the beam on by one dot.  On the visible lines and the one before them the
background is fetched eight dots ahead (`Ppu.fetchBackground`), and at dot 257 the sprites of the
next line are drawn (`Ppu.drawSprites`).  For every column of a visible line one pixel goes into the
picture (`Ppu.drawPixel`).  When the vertical blank starts, the picture is complete
(`Ppu.enterVblank`).
-/

namespace Nes.Ppu

variable {γ : Type} [PictureBus γ]

/-- The address of the row of the tile being fetched. -/
def patternAddr (p : Ppu) : Nat :=
  p.control.backgroundTable + p.background.tile.toNat * 16 + p.v.fineY.val

/-- Fetches the number of the next tile. -/
@[specialize] def fetchTile (p : Ppu) (cart : γ) : Ppu :=
  let tile := p.readMemory cart (UInt16.ofNat p.v.tileAddr)
  { p with background := { p.background with tile } }

/-- Fetches the palette of the next tile. -/
@[specialize] def fetchAttribute (p : Ppu) (cart : γ) : Ppu :=
  let attributes := p.v.attributeBits (p.readMemory cart (UInt16.ofNat p.v.attributeAddr))
  { p with background := { p.background with attributes } }

/-- Fetches the low bits of the next tile's row. -/
@[specialize] def fetchLow (p : Ppu) (cart : γ) : Ppu :=
  let low := PictureBus.chrRead cart (UInt16.ofNat p.patternAddr)
  { p with background := { p.background with low } }

/-- Fetches the high bits of the next tile's row. -/
@[specialize] def fetchHigh (p : Ppu) (cart : γ) : Ppu :=
  let high := PictureBus.chrRead cart (UInt16.ofNat (p.patternAddr + 8))
  { p with background := { p.background with high } }

/-- Loads the shift registers. -/
def loadBackground (p : Ppu) : Ppu := { p with background := p.background.load }

/-- The part of a tile's fetch that falls on a dot: every eight dots, the next tile is loaded and
the one after it is fetched. -/
@[specialize] def fetchStep (p : Ppu) (cart : γ) (phase : Nat) : Ppu :=
  match phase with
  | 0 => p.loadBackground.fetchTile cart
  | 2 => p.fetchAttribute cart
  | 4 => p.fetchLow cart
  | 6 => p.fetchHigh cart
  | 7 => { p with v := p.v.nextTile }
  | _ => p

/-- The work on the background at a dot of a visible line or the one before them. -/
@[specialize] def fetchBackground (p : Ppu) (cart : γ) : Ppu :=
  let dot := p.beam.dot
  let p :=
    if (2 ≤ dot && dot ≤ 257) || (321 ≤ dot && dot ≤ 337) then
      fetchStep { p with background := p.background.shift } cart ((dot - 1) % 8)
    else p
  if dot == 256 then { p with v := p.v.nextRow }
  else if dot == 257 then
    let p := p.loadBackground
    { p with v := p.v.takeX p.t }
  else if dot == 338 || dot == 340 then p.fetchTile cart
  else p

/-- Draws a sprite of sprite memory, whose row on the beam's line is fetched. -/
@[specialize] def drawSprite (p : Ppu) (cart : γ) (line : SpriteLine) (i : Fin 64) : SpriteLine :=
  let s := Sprite.ofMemory p.sprites i
  let addr := s.patternAddr p.control (s.row p.control.spriteHeight p.beam.line)
  let low := PictureBus.chrRead cart (UInt16.ofNat addr)
  let high := PictureBus.chrRead cart (UInt16.ofNat (addr + 8))
  line.paint s (i.val == 0) low high

/-- Draws the sprites of the next line: the first eight in order.  A ninth one is only noticed. -/
@[specialize] def drawSprites (p : Ppu) (cart : γ) : Ppu :=
  let found := spritesOn p.sprites p.control.spriteHeight p.beam.line
  let spriteLine := (found.take 8).foldl (p.drawSprite cart) .empty
  { p with
    spriteLine
    status := { p.status with overflow := p.status.overflow || decide (8 < found.length) } }

/-- The background's pixel and palette in a column, zero where it is not shown. -/
def backgroundAt (p : Ppu) (column : Nat) : Nat × Nat :=
  if p.mask.showsBackground column then
    (p.background.pixel p.fineX, p.background.palette p.fineX)
  else (0, 0)

/-- What sprites show in a column. -/
def spriteAt (p : Ppu) (column : Nat) : SpritePixel :=
  if p.mask.showsSprites column then p.spriteLine.getD column {} else {}

/-- The address of the colour where background and sprite meet. -/
def mix (pixel palette : Nat) (sprite : SpritePixel) : UInt16 :=
  let background := UInt16.ofNat (0x3F00 + palette * 4 + pixel)
  let foreground := 0x3F10 + sprite.palette.toUInt16 * 4 + sprite.pixel.toUInt16
  if pixel = 0 then
    if sprite.pixel == 0 then 0x3F00 else foreground
  else if sprite.pixel == 0 || sprite.behind then background
  else foreground

/-- A pixel of the first sprite meets one of the background. -/
def meets (pixel : Nat) (sprite : SpritePixel) (column : Nat) : Bool :=
  pixel != 0 && sprite.pixel != 0 && sprite.isFirst && column != 255

/-- Draws the pixel at the beam, which is at a column of a visible line. -/
def drawPixel (p : Ppu) : Ppu :=
  let column := p.beam.dot - 1
  let (pixel, palette) := p.backgroundAt column
  let sprite := p.spriteAt column
  let colour := rgb (p.paletteEntry (mix pixel palette sprite)) p.mask.greyscale
  let status := p.status
  let cell := p.beam.line * width + column
  { p with
    status := { status with zeroHit := status.zeroHit || meets pixel sprite column }
    back := p.back.setIfInBounds cell colour }

/-- The picture is complete, and the blank starts. -/
def enterVblank (p : Ppu) : Ppu :=
  let ⟨front, back⟩ := (p.front, p.back)
  { p with
    status := { p.status with vblank := true }
    nmi := p.nmi || p.control.nmiEnabled
    front := back
    back := front
    frameReady := true }

/-- The work on a visible line or the one before them, while something is shown. -/
@[specialize] def render (p : Ppu) (cart : γ) : Ppu :=
  let p := p.fetchBackground cart
  let p :=
    if p.beam.dot == 257 then
      if p.beam.visible then p.drawSprites cart else { p with spriteLine := .empty }
    else p
  if p.beam.preRender && 280 ≤ p.beam.dot && p.beam.dot ≤ 304 then { p with v := p.v.takeY p.t }
  else p

/-- The picture unit works for a line of the picture. -/
def rendersLine (p : Ppu) : Bool := p.mask.rendering && (p.beam.visible || p.beam.preRender)

/-- The dot at which the cartridge is told that a line has been drawn. -/
def clocksLine (p : Ppu) : Bool := p.rendersLine && p.beam.dot == 260

/-- The flags of the last frame end before the first visible line. -/
def endsFlags (p : Ppu) : Bool := p.beam.preRender && p.beam.dot == 1

/-- One dot. -/
@[specialize] def tick (p : Ppu) (cart : γ) : Ppu :=
  let rendering := p.mask.rendering
  let p := if p.endsFlags then { p with status := {} } else p
  let p := if p.rendersLine then p.render cart else p
  let p := if p.beam.drawing then p.drawPixel else p
  let p := if p.beam.entersVblank then p.enterVblank else p
  { p with beam := p.beam.advance rendering }

/-- One dot for the picture unit and the cartridge. -/
@[specialize] def tickWith (p : Ppu) (cart : γ) : Ppu × γ :=
  let clocks := p.clocksLine
  let p := p.tick cart
  (p, if clocks then PictureBus.clockLine cart else cart)

end Nes.Ppu
