/-!
# Background shift registers

The background is fetched tile by tile, eight dots ahead of the beam.  What has been fetched waits
in four latches; every eight dots the latches are loaded into the low halves of four shift
registers, which hand out a pixel for every dot from their high halves.
-/

namespace Nes.Ppu

/-- The latches and shift registers of the background. -/
structure Background where
  /-- The number of the tile being fetched. -/
  tile : UInt8 := 0
  /-- The palette of the tile being fetched. -/
  attributes : UInt8 := 0
  /-- The low bits of its row. -/
  low : UInt8 := 0
  /-- The high bits of its row. -/
  high : UInt8 := 0
  /-- The low bits of the pixels. -/
  patternLow : UInt16 := 0
  /-- The high bits of the pixels. -/
  patternHigh : UInt16 := 0
  /-- The low bits of the palettes. -/
  attributeLow : UInt16 := 0
  /-- The high bits of the palettes. -/
  attributeHigh : UInt16 := 0
deriving DecidableEq, Repr, Inhabited

namespace Background

/-- Moves on by one pixel. -/
def shift (b : Background) : Background :=
  { b with
    patternLow := b.patternLow <<< 1
    patternHigh := b.patternHigh <<< 1
    attributeLow := b.attributeLow <<< 1
    attributeHigh := b.attributeHigh <<< 1 }

/-- A register whose low half is replaced. -/
def withLow (register : UInt16) (v : UInt8) : UInt16 := (register &&& 0xFF00) ||| v.toUInt16

/-- Loads the latches into the low halves of the registers. -/
def load (b : Background) : Background :=
  { b with
    patternLow := withLow b.patternLow b.low
    patternHigh := withLow b.patternHigh b.high
    attributeLow := withLow b.attributeLow (if b.attributes &&& 1 != 0 then 0xFF else 0)
    attributeHigh := withLow b.attributeHigh (if b.attributes &&& 2 != 0 then 0xFF else 0) }

/-- The bit of a register that is shown when the picture is shifted by `fineX` pixels. -/
def bit (register : UInt16) (fineX : Fin 8) : Bool :=
  register &&& (0x8000 >>> UInt16.ofNat fineX.val) != 0

/-- The pixel shown. -/
def pixel (b : Background) (fineX : Fin 8) : Nat :=
  2 * (bit b.patternHigh fineX).toNat + (bit b.patternLow fineX).toNat

/-- The palette of the pixel shown. -/
def palette (b : Background) (fineX : Fin 8) : Nat :=
  2 * (bit b.attributeHigh fineX).toNat + (bit b.attributeLow fineX).toNat

end Background

end Nes.Ppu
