import Nes.Proofs.Ppu.Nmi
import Nes.Proofs.Ppu.ScrollWord

/-!
# The picture unit in words

`Words` is the picture unit with registers that are plain numbers: two addresses of 16 bits, a fine
column, and the number of the picture being drawn of a pair of pictures.  Its operations compute
with arithmetic that can stop, read and write arrays inside their bounds only, and stop at a read or
a write of the cartridge's patterns from `$2000` on.
-/

namespace Nes.Ppu

open Checked

/-- The picture unit, with numbers for registers. -/
structure Words where
  /-- The control register. -/
  control : Control := {}
  /-- The mask register. -/
  mask : Mask := {}
  /-- The status register. -/
  status : Status := {}
  /-- The current address. -/
  v : Nat := 0
  /-- The address that the current one is set from. -/
  t : Nat := 0
  /-- The columns by which the picture is shifted within a tile. -/
  x : Nat := 0
  /-- The next write to the scroll or address register is the second of a pair. -/
  second : Bool := false
  /-- Nametables. -/
  vram : Vector UInt8 0x1000 := .replicate _ 0
  /-- Sprite memory. -/
  sprites : SpriteMemory := .replicate _ 0
  /-- The address within sprite memory. -/
  spriteAddr : UInt8 := 0
  /-- Palette memory. -/
  palette : Vector UInt8 32 := .replicate _ 0
  /-- The byte that the next read of memory answers. -/
  readBuffer : UInt8 := 0
  /-- The byte that was last on the register bus. -/
  openBus : UInt8 := 0
  /-- The beam. -/
  beam : Beam := {}
  /-- The processor is to be interrupted. -/
  nmi : Bool := false
  /-- The background on its way to the screen. -/
  background : Background := {}
  /-- The sprites of the next line. -/
  spriteLine : SpriteLine := .empty
  /-- The two pictures. -/
  pictures : Vector Picture 2 := #v[.blank, .blank]
  /-- The number of the picture being drawn. -/
  back : Nat := 0
  /-- A picture has been completed and not yet been taken. -/
  frameReady : Bool := false

/-! ### Indices -/

/-- `Mirroring.vramIndex` in words of 64 bits. -/
def vramIndex? (m : Mirroring) (addr : Nat) : Option Nat := do
  let offset := addr &&& 0x0FFF
  let start ← mul 64 (m.page (offset / 0x400)) 0x400
  add 64 start (offset &&& 0x3FF)

/-- `paletteIndex` of a word. -/
def paletteIndex? (addr : Nat) : Option Nat :=
  let index := addr &&& 0x1F
  if 0x10 ≤ index ∧ index &&& 3 = 0 then sub index 0x10 else some index

/-- `rgb` with a table of 64 colours. -/
def rgb? (entry : UInt8) (greyscale : Bool) : Option UInt32 :=
  colours[(entry &&& if greyscale then 0x30 else 0x3F).toNat]?

/-- The address of a colour of a palette, from the start of the palettes. -/
def entryAddr? (start palette pixel : Nat) : Option Nat := do
  let offset ← mul 16 palette 4
  let addr ← add 16 start offset
  add 16 addr pixel

/-- The address of the colour where background and sprite meet. -/
def mix? (pixel palette : Nat) (sprite : SpritePixel) : Option Nat := do
  let background ← entryAddr? 0x3F00 palette pixel
  let foreground ← entryAddr? 0x3F10 sprite.palette.toNat sprite.pixel.toNat
  some <|
    if pixel = 0 then
      if sprite.pixel == 0 then 0x3F00 else foreground
    else if sprite.pixel == 0 || sprite.behind then background
    else foreground

/-- `Beam.advance` in words of 16 bits. -/
def Beam.advance? (b : Beam) (rendering : Bool) : Option Beam := do
  let dot ← add 16 b.dot 1
  let dot := if b.preRender && dot == 340 && b.oddFrame && rendering then dotsPerLine else dot
  if dotsPerLine ≤ dot then do
    let line ← add 16 b.line 1
    if line = linesPerFrame then
      some { line := 0, dot := 0, oddFrame := !b.oddFrame, frames := b.frames + 1 }
    else some { b with line, dot := 0 }
  else some { b with dot }

/-! ### Sprites -/

/-- `Sprite.pixel`, which lies at one of the eight bits of each byte. -/
def Sprite.pixel? (s : Sprite) (low high : UInt8) (column : Nat) : Option UInt8 := do
  let bit ← if s.flippedX then some column else sub 7 column
  if bit < 8 then
    some ((high >>> UInt8.ofNat bit &&& 1) <<< 1 ||| (low >>> UInt8.ofNat bit &&& 1))
  else none

/-- `SpriteLine.paintFrom` with a line of 256 columns. -/
def SpriteLine.paintFrom? (shown : SpriteLine) (s : Sprite) (isFirst : Bool) (low high : UInt8)
    (column : Nat) : Option SpriteLine :=
  if column < 8 then do
    let x ← add 64 s.x.toNat column
    if h : x < 256 then do
      let pixel ← s.pixel? low high column
      let there ← shown[x]?
      if pixel == 0 || there.pixel != 0 then paintFrom? shown s isFirst low high (column + 1)
      else
        paintFrom? (shown.set x { pixel, palette := s.palette, behind := s.behind, isFirst })
          s isFirst low high (column + 1)
    else some shown
  else some shown
termination_by 8 - column

namespace Sprite

/-- `Sprite.ofMemory` with a memory of 256 bytes. -/
def ofMemory? (memory : SpriteMemory) (i : Nat) : Option Sprite := do
  let base ← mul 64 i 4
  let y ← memory[base]?
  let tileAddr ← add 64 base 1
  let tile ← memory[tileAddr]?
  let attributesAddr ← add 64 base 2
  let attributes ← memory[attributesAddr]?
  let xAddr ← add 64 base 3
  let x ← memory[xAddr]?
  some { y, tile, attributes, x }

/-- `Sprite.row` in words of 32 bits with a sign, of a line that may miss the sprite. -/
def row? (s : Sprite) (height line : Nat) : Option (Option Nat) := do
  let row ← signed 32 (line - s.y.toNat)
  if 0 ≤ row ∧ row < height then
    if s.flippedY then do
      let last ← signed 32 (height - 1)
      let row ← signed 32 (last - row)
      some (some row.toNat)
    else some (some row.toNat)
  else some none

/-- `Sprite.patternAddr` in words of 16 bits. -/
def patternAddr? (s : Sprite) (control : Control) (row : Nat) : Option Nat :=
  if control.spriteHeight = 8 then do
    let tile ← mul 16 s.tile.toNat 16
    let start ← add 16 control.spriteTable tile
    add 16 start row
  else do
    let table ← mul 16 (s.tile.toNat &&& 1) 0x1000
    let tile ← add 16 (s.tile.toNat &&& 0xFE) (row / 8)
    let offset ← mul 16 tile 16
    let start ← add 16 table offset
    add 16 start (row &&& 7)

end Sprite

namespace Words

/-- The picture unit at power-on. -/
def powerOn : Words := {}

/-- After a reset: memory, addresses and the beam stay. -/
def reset (w : Words) : Words :=
  { w with
    control := {}
    mask := {}
    second := false
    readBuffer := 0
    beam := { w.beam with oddFrame := false }
    nmi := false }

/-- The last complete picture. -/
def front? (w : Words) : Option Picture := w.pictures[w.back ^^^ 1]?

variable {γ : Type} [PictureBus γ]

/-! ### Memory -/

/-- A read of patterns, which lie below `$2000`. -/
def chrRead? (cart : γ) (addr : Nat) : Option UInt8 :=
  if addr < 0x2000 then some (PictureBus.chrRead cart (.ofNat addr)) else none

/-- A write to patterns, which lie below `$2000`. -/
def chrWrite? (cart : γ) (addr : Nat) (d : UInt8) : Option γ :=
  if addr < 0x2000 then some (PictureBus.chrWrite cart (.ofNat addr) d) else none

/-- The byte behind the low 14 bits of an address. -/
def readMemory? (w : Words) (cart : γ) (addr : Nat) : Option UInt8 :=
  let addr := addr &&& 0x3FFF
  if addr < 0x2000 then chrRead? cart addr
  else if addr < 0x3F00 then do
    let i ← vramIndex? (PictureBus.mirroring cart) addr
    w.vram[i]?
  else do
    let i ← paletteIndex? addr
    w.palette[i]?

/-- Puts a byte behind the low 14 bits of an address. -/
def writeMemory? (w : Words) (cart : γ) (addr : Nat) (d : UInt8) : Option (Words × γ) :=
  let addr := addr &&& 0x3FFF
  if addr < 0x2000 then do
    let cart ← chrWrite? cart addr d
    some (w, cart)
  else if addr < 0x3F00 then do
    let i ← vramIndex? (PictureBus.mirroring cart) addr
    if h : i < 0x1000 then some ({ w with vram := w.vram.set i d }, cart) else none
  else do
    let i ← paletteIndex? addr
    if h : i < 32 then some ({ w with palette := w.palette.set i (d &&& 0x3F) }, cart) else none

/-! ### Background -/

/-- The address of the row of the tile being fetched. -/
def patternAddr? (w : Words) : Option Nat := do
  let tile ← mul 16 w.background.tile.toNat 16
  let start ← add 16 w.control.backgroundTable tile
  add 16 start (w.v >>> 12 &&& 7)

/-- Fetches the number of the next tile. -/
def fetchTile? (w : Words) (cart : γ) : Option Words := do
  let tile ← w.readMemory? cart (Word.tileAddr w.v)
  some { w with background := { w.background with tile } }

/-- Fetches the palette of the next tile. -/
def fetchAttribute? (w : Words) (cart : γ) : Option Words := do
  let d ← w.readMemory? cart (Word.attributeAddr w.v)
  some { w with background := { w.background with attributes := Word.attributeBits w.v d } }

/-- Fetches the low bits of the next tile's row. -/
def fetchLow? (w : Words) (cart : γ) : Option Words := do
  let addr ← w.patternAddr?
  let low ← chrRead? cart addr
  some { w with background := { w.background with low } }

/-- Fetches the high bits of the next tile's row. -/
def fetchHigh? (w : Words) (cart : γ) : Option Words := do
  let addr ← w.patternAddr?
  let addr ← add 16 addr 8
  let high ← chrRead? cart addr
  some { w with background := { w.background with high } }

/-- Loads the shift registers. -/
def loadBackground (w : Words) : Words := { w with background := w.background.load }

/-- The part of a tile's fetch that falls on a dot. -/
def fetchStep? (w : Words) (cart : γ) (phase : Nat) : Option Words :=
  match phase with
  | 0 => w.loadBackground.fetchTile? cart
  | 2 => w.fetchAttribute? cart
  | 4 => w.fetchLow? cart
  | 6 => w.fetchHigh? cart
  | 7 => do
    let v ← Word.nextTile? w.v
    some { w with v }
  | _ => some w

/-- What is fetched at a dot of a line. -/
def fetchDot? (w : Words) (cart : γ) (dot : Nat) : Option Words :=
  if (2 ≤ dot && dot ≤ 257) || (321 ≤ dot && dot ≤ 337) then do
    let since ← sub dot 1
    fetchStep? { w with background := w.background.shift } cart (since % 8)
  else some w

/-- What else happens at a dot at the end of a line: the address moves on to the next one. -/
def turnDot? (w : Words) (cart : γ) (dot : Nat) : Option Words :=
  if dot == 256 then do
    let v ← Word.nextRow? w.v
    some { w with v }
  else if dot == 257 then
    some { w.loadBackground with v := Word.takeX w.v w.t }
  else if dot == 338 || dot == 340 then w.fetchTile? cart
  else some w

/-- The work on the background at a dot of a visible line or the one before them. -/
def fetchBackground? (w : Words) (cart : γ) : Option Words := do
  let q ← w.fetchDot? cart w.beam.dot
  q.turnDot? cart w.beam.dot

/-! ### Drawing -/

/-- Draws the sprites of the beam's line that are among the given ones, until eight are found; tells
whether there is a ninth. -/
def drawFrom? (w : Words) (cart : γ) : List Nat → Nat → SpriteLine → Option (SpriteLine × Bool)
  | [], _, line => some (line, false)
  | i :: others, found, line => do
    let s ← Sprite.ofMemory? w.sprites i
    match ← s.row? w.control.spriteHeight w.beam.line with
    | none => drawFrom? w cart others found line
    | some row =>
      if found = 8 then some (line, true)
      else do
        let found ← add 31 found 1
        let addr ← s.patternAddr? w.control row
        let low ← chrRead? cart addr
        let addr ← add 16 addr 8
        let high ← chrRead? cart addr
        let line ← line.paintFrom? s (i == 0) low high 0
        drawFrom? w cart others found line

/-- Draws the sprites of the next line. -/
def drawSprites? (w : Words) (cart : γ) : Option Words := do
  let (spriteLine, more) ← w.drawFrom? cart (List.range 64) 0 .empty
  some { w with spriteLine, status := { w.status with overflow := w.status.overflow || more } }

/-- The background's pixel and palette in a column, zero where it is not shown. -/
def backgroundAt? (w : Words) (column : Nat) : Option (Nat × Nat) :=
  if w.mask.showsBackground column then
    if w.x < 16 then
      let bit (register : UInt16) : Nat := (register &&& (0x8000 >>> UInt16.ofNat w.x) != 0).toNat
      some (2 * bit w.background.patternHigh + bit w.background.patternLow,
        2 * bit w.background.attributeHigh + bit w.background.attributeLow)
    else none
  else some (0, 0)

/-- What sprites show in a column. -/
def spriteAt? (w : Words) (column : Nat) : Option SpritePixel :=
  if w.mask.showsSprites column then w.spriteLine[column]? else some {}

/-- Puts a colour into the picture being drawn. -/
def put? (w : Words) (cell : Nat) (colour : UInt32) : Option Words := do
  let picture ← w.pictures[w.back]?
  if h : cell < 256 * 240 ∧ w.back < 2 then
    some { w with pictures := w.pictures.set w.back (picture.set cell colour h.1) h.2 }
  else none

/-- Draws the pixel at the beam, which is at a column of a visible line. -/
def drawPixel? (w : Words) : Option Words := do
  let column ← sub w.beam.dot 1
  let (pixel, palette) ← w.backgroundAt? column
  let sprite ← w.spriteAt? column
  let addr ← mix? pixel palette sprite
  let i ← paletteIndex? addr
  let entry ← w.palette[i]?
  let colour ← rgb? entry w.mask.greyscale
  let start ← mul 64 w.beam.line width
  let cell ← add 64 start column
  let w ← w.put? cell colour
  let zeroHit := w.status.zeroHit || meets pixel sprite column
  some { w with status := { w.status with zeroHit } }

/-- The picture is complete, and the blank starts. -/
def enterVblank (w : Words) : Words :=
  { w with
    status := { w.status with vblank := true }
    nmi := w.nmi || w.control.nmiEnabled
    back := w.back ^^^ 1
    frameReady := true }

/-- The sprites of the next line are drawn at the end of a visible line. -/
def spriteDot? (w : Words) (cart : γ) : Option Words :=
  if w.beam.dot == 257 then
    if w.beam.visible then w.drawSprites? cart else some { w with spriteLine := .empty }
  else some w

/-- Before the first visible line the address goes back to the top. -/
def topDot (w : Words) : Words :=
  if w.beam.preRender && 280 ≤ w.beam.dot && w.beam.dot ≤ 304 then
    { w with v := Word.takeY w.v w.t }
  else w

/-- The work on a visible line or the one before them, while something is shown. -/
def render? (w : Words) (cart : γ) : Option Words := do
  let w ← w.fetchBackground? cart
  let w ← w.spriteDot? cart
  some w.topDot

/-- The flags of the last frame end before the first visible line. -/
def flagDot (w : Words) : Words :=
  if w.beam.preRender && w.beam.dot == 1 then { w with status := {} } else w

/-- The work on a line of the picture. -/
def lineDot? (w : Words) (cart : γ) : Option Words :=
  if w.mask.rendering && (w.beam.visible || w.beam.preRender) then w.render? cart else some w

/-- The pixel of a dot. -/
def paintDot? (w : Words) : Option Words := if w.beam.drawing then w.drawPixel? else some w

/-- The start of the blank. -/
def blankDot (w : Words) : Words := if w.beam.entersVblank then w.enterVblank else w

/-- One dot. -/
def tick? (w : Words) (cart : γ) : Option Words := do
  let q ← w.flagDot.lineDot? cart
  let q ← q.paintDot?
  let beam ← q.beam.advance? w.mask.rendering
  some { q.blankDot with beam }

/-! ### Registers -/

/-- Reads memory at the current address. -/
def readData? (w : Words) (cart : γ) : Option (UInt8 × Words) := do
  let addr := w.v &&& 0x3FFF
  let v := Word.advance w.v w.control.increment
  if 0x3F00 ≤ addr then do
    let under ← sub addr 0x1000
    let readBuffer ← w.readMemory? cart under
    let d ← w.readMemory? cart addr
    some (d, { w with readBuffer, v })
  else do
    let readBuffer ← w.readMemory? cart addr
    some (w.readBuffer, { w with readBuffer, v })

/-- What a register answers, and the picture unit after it. -/
def answer? (w : Words) (cart : γ) (register : Nat) : Option (UInt8 × Words) :=
  match register with
  | 2 => some (w.status.toByte ||| (w.readBuffer &&& 0x1F),
      { w with status := { w.status with vblank := false }, second := false })
  | 4 => do
    let d ← w.sprites[w.spriteAddr.toNat]?
    some (d, w)
  | 7 => w.readData? cart
  | _ => some (w.openBus, w)

/-- The processor reads register `number % 8`. -/
def readRegister? (w : Words) (cart : γ) (number : UInt16) : Option (UInt8 × Words) := do
  let (d, w) ← w.answer? cart (number &&& 7).toNat
  some (d, { w with openBus := d })

/-- Sets the control register. -/
def writeControl (w : Words) (d : UInt8) : Words :=
  let control : Control := ⟨d⟩
  let raised := !w.control.nmiEnabled && control.nmiEnabled && w.status.vblank
  { w with control, t := Word.setTables w.t d, nmi := w.nmi || raised }

/-- Sets the column, then the row, of the top left corner. -/
def writeScroll (w : Words) (d : UInt8) : Words :=
  if w.second then { w with t := Word.setRow w.t d, second := false }
  else { w with t := Word.setColumn w.t d, x := d.toNat &&& 7, second := true }

/-- Sets the high six bits, then the low byte, of the address. -/
def writeAddr (w : Words) (d : UInt8) : Words :=
  if w.second then
    let t := Word.setLow w.t d
    { w with t, v := t, second := false }
  else { w with t := Word.setHigh w.t d, second := true }

/-- Puts a byte into sprite memory. -/
def writeSprite? (w : Words) (d : UInt8) : Option Words :=
  if h : w.spriteAddr.toNat < 256 then
    some { w with sprites := w.sprites.set w.spriteAddr.toNat d, spriteAddr := w.spriteAddr + 1 }
  else none

/-- The processor writes register `number % 8`. -/
def writeRegister? (w : Words) (cart : γ) (number : UInt16) (d : UInt8) : Option (Words × γ) :=
  let w := { w with openBus := d }
  match (number &&& 7).toNat with
  | 0 => some (w.writeControl d, cart)
  | 1 => some ({ w with mask := ⟨d⟩ }, cart)
  | 2 => some (w, cart)
  | 3 => some ({ w with spriteAddr := d }, cart)
  | 4 => do
    let w ← w.writeSprite? d
    some (w, cart)
  | 5 => some (w.writeScroll d, cart)
  | 6 => some (w.writeAddr d, cart)
  | _ => do
    let (w, cart) ← w.writeMemory? cart w.v d
    some ({ w with v := Word.advance w.v w.control.increment }, cart)

/-! ### Histories -/

/-- The picture unit after an operation. -/
def act? (w : Words) : Op γ → Option Words
  | .tick cart => w.tick? cart
  | .read cart number => do
    let (_, w) ← w.readRegister? cart number
    some w
  | .write cart number d => do
    let (w, _) ← w.writeRegister? cart number d
    some w
  | .sprites page => page.foldlM writeSprite? w
  | .takeFrame => some { w with frameReady := false }
  | .poll => some { w with nmi := false }
  | .reset => some w.reset

/-- The picture unit after some operations. -/
def run? (w : Words) (ops : List (Op γ)) : Option Words := ops.foldlM act? w

/-- What the registers keep to: addresses have 15 bits, the column three, the beam is in the frame,
there are two pictures, and a colour has six bits. -/
structure InRange (w : Words) : Prop where
  /-- The current address. -/
  v_lt : w.v < 0x8000
  /-- The address it is set from. -/
  t_lt : w.t < 0x8000
  /-- The column within a tile. -/
  x_lt : w.x < 8
  /-- The beam's line. -/
  line_lt : w.beam.line < linesPerFrame
  /-- The beam's dot. -/
  dot_lt : w.beam.dot < dotsPerLine
  /-- The number of the picture being drawn. -/
  back_le : w.back ≤ 1
  /-- The bytes of palette memory. -/
  palette_lt : ∀ (i : Nat) (hi : i < 32), w.palette[i].toNat < 0x40

end Words

end Nes.Ppu
