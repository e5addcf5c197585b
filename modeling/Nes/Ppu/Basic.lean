import Nes.PictureBus
import Nes.Ppu.Background
import Nes.Ppu.Beam
import Nes.Ppu.Palette
import Nes.Ppu.Registers
import Nes.Ppu.Scroll
import Nes.Ppu.Sprite

/-!
# The picture unit

`Ppu` holds the state of the picture unit, which draws from its own memory and from that of a
cartridge, any state with the operations of a `PictureBus`.  `Ppu.readMemory` and `Ppu.writeMemory`
are the accesses to the 14-bit addresses behind which patterns, nametables and palettes lie.
-/

namespace Nes

/-- A picture, row by row. -/
abbrev Picture := Vector UInt32 (256 * 240)

/-- A picture before anything has been drawn. -/
def Picture.blank : Picture := .replicate _ 0

/-- The picture unit. -/
structure Ppu where
  /-- The control register. -/
  control : Ppu.Control := {}
  /-- The mask register. -/
  mask : Ppu.Mask := {}
  /-- The status register. -/
  status : Ppu.Status := {}
  /-- The current address. -/
  v : Ppu.Scroll := {}
  /-- The address that the current one is set from. -/
  t : Ppu.Scroll := {}
  /-- The columns by which the picture is shifted within a tile. -/
  fineX : Fin 8 := 0
  /-- The next write to the scroll or address register is the second of a pair. -/
  second : Bool := false
  /-- Nametables. -/
  vram : Vector UInt8 0x1000 := .replicate _ 0
  /-- Sprite memory. -/
  sprites : Ppu.SpriteMemory := .replicate _ 0
  /-- The address within sprite memory. -/
  spriteAddr : UInt8 := 0
  /-- Palette memory. -/
  palette : Vector UInt8 32 := .replicate _ 0
  /-- The byte that the next read of memory answers. -/
  readBuffer : UInt8 := 0
  /-- The byte that was last on the register bus. -/
  openBus : UInt8 := 0
  /-- The beam. -/
  beam : Ppu.Beam := {}
  /-- The processor is to be interrupted. -/
  nmi : Bool := false
  /-- The background on its way to the screen. -/
  background : Ppu.Background := {}
  /-- The sprites of the next line. -/
  spriteLine : Ppu.SpriteLine := .empty
  /-- The last complete picture. -/
  front : Picture := .blank
  /-- The picture being drawn. -/
  back : Picture := .blank
  /-- A picture has been completed and not yet been taken. -/
  frameReady : Bool := false

namespace Ppu

/-- The picture unit at power-on. -/
def powerOn : Ppu := {}

instance : Inhabited Ppu := ⟨powerOn⟩

/-- After a reset: memory, addresses and the beam stay. -/
def reset (p : Ppu) : Ppu :=
  { p with
    control := {}
    mask := {}
    second := false
    readBuffer := 0
    beam := { p.beam with oddFrame := false }
    nmi := false }

/-- Whether the processor is to be interrupted, which is told once. -/
def pollNmi (p : Ppu) : Bool × Ppu := (p.nmi, { p with nmi := false })

/-- Whether a picture has been completed, which is told once. -/
def takeFrame (p : Ppu) : Bool × Ppu := (p.frameReady, { p with frameReady := false })

variable {γ : Type} [PictureBus γ]

/-- The byte of palette memory at an address. -/
def paletteEntry (p : Ppu) (addr : UInt16) : UInt8 :=
  have := paletteIndex_lt addr
  p.palette[paletteIndex addr]

/-- The byte of the nametables at an address. -/
def nametableEntry (p : Ppu) (mirroring : Mirroring) (addr : UInt16) : UInt8 :=
  have := mirroring.vramIndex_lt addr
  p.vram[mirroring.vramIndex addr]

/-- The byte behind the low 14 bits of an address. -/
@[specialize] def readMemory (p : Ppu) (cart : γ) (addr : UInt16) : UInt8 :=
  let addr := addr &&& 0x3FFF
  if addr < 0x2000 then PictureBus.chrRead cart addr
  else if addr < 0x3F00 then p.nametableEntry (PictureBus.mirroring cart) addr
  else p.paletteEntry addr

/-- Puts a byte behind the low 14 bits of an address; palette memory has six bits. -/
@[specialize] def writeMemory (p : Ppu) (cart : γ) (addr : UInt16) (v : UInt8) : Ppu × γ :=
  let addr := addr &&& 0x3FFF
  if addr < 0x2000 then (p, PictureBus.chrWrite cart addr v)
  else if addr < 0x3F00 then
    let i := (PictureBus.mirroring cart).vramIndex addr
    have := (PictureBus.mirroring cart).vramIndex_lt addr
    ({ p with vram := p.vram.set i v }, cart)
  else
    let i := paletteIndex addr
    have := paletteIndex_lt addr
    ({ p with palette := p.palette.set i (v &&& 0x3F) }, cart)

end Ppu

end Nes
