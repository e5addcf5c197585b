import Nes.Bits

/-!
# The sample channel

The channel plays samples of one bit: each bit lets the level rise or fall by two.  A reader fetches
the bytes of a sample from memory into a buffer, whenever the buffer is empty (`Dmc.fetchAddress`,
`Dmc.feed`); the output unit takes a byte from the buffer for every eight bits (`Dmc.tick`).  At the
end of a sample the reader starts over or may request an interrupt.
-/

namespace Nes.Apu

/-- The sample channel. -/
structure Dmc where
  /-- The end of a sample requests an interrupt. -/
  irqEnabled : Bool := false
  /-- The end of a sample starts it over. -/
  looping : Bool := false
  /-- The ticks left of the bit. -/
  timer : Nat := 0
  /-- The ticks of a bit. -/
  period : Nat := 428
  /-- The level. -/
  level : Nat := 0
  /-- Where samples start. -/
  sampleAddr : UInt16 := 0xC000
  /-- The bytes of a sample. -/
  sampleLength : Nat := 1
  /-- Where the next byte is. -/
  currentAddr : UInt16 := 0xC000
  /-- The bytes left of the sample. -/
  remaining : Nat := 0
  /-- The byte to be played next. -/
  buffer : Option UInt8 := none
  /-- The bits being played. -/
  shift : Nat := 0
  /-- The bits left, including the one that ends at the next clock. -/
  bits : Nat := 0
  /-- There is no byte to play. -/
  silent : Bool := true
  /-- An interrupt is requested. -/
  irq : Bool := false
deriving DecidableEq, Repr, Inhabited

namespace Dmc

/-- The ticks of a bit that a register selects by its low four bits. -/
def periods : Vector Nat 16 :=
  #v[428, 380, 340, 320, 286, 254, 226, 214, 190, 160, 142, 128, 106, 84, 72, 54]

/-- A write to register `register % 4` of the channel. -/
def write (d : Dmc) (register : Nat) (v : UInt8) : Dmc :=
  match register % 4 with
  | 0 =>
    let irqEnabled := v &&& 0x80 != 0
    { d with
      irqEnabled
      irq := d.irq && irqEnabled
      looping := v &&& 0x40 != 0
      period := periods.get (Bits.low4 v) }
  | 1 => { d with level := v.toNat % 128 }
  | 2 => { d with sampleAddr := 0xC000 + v.toUInt16 * 64 }
  | _ => { d with sampleLength := 16 * v.toNat + 1 }

/-- The reader goes to the start of the sample. -/
def restart (d : Dmc) : Dmc :=
  { d with currentAddr := d.sampleAddr, remaining := d.sampleLength }

/-- Drops the rest of the sample, or starts a sample if none is being read. -/
def setEnabled (d : Dmc) (enabled : Bool) : Dmc :=
  if !enabled then { d with remaining := 0 } else if d.remaining = 0 then d.restart else d

/-- Bytes of the sample are left. -/
def active (d : Dmc) : Bool := 0 < d.remaining

/-- The address of the byte that the reader wants. -/
def fetchAddress (d : Dmc) : Option UInt16 :=
  if d.buffer.isNone && d.active then some d.currentAddr else none

/-- The address after another; memory of samples ends with `$FFFF` and goes on at `$8000`. -/
def nextAddr (addr : UInt16) : UInt16 := if addr == 0xFFFF then 0x8000 else addr + 1

/-- The reader receives the byte that it wanted. -/
def feed (d : Dmc) (v : UInt8) : Dmc :=
  let d := { d with
    buffer := some v
    currentAddr := nextAddr d.currentAddr
    remaining := d.remaining - 1 }
  if d.remaining = 0 then
    if d.looping then d.restart else { d with irq := d.irq || d.irqEnabled }
  else d

/-- The level after a bit. -/
def nextLevel (d : Dmc) : Nat :=
  if d.silent then d.level
  else if d.shift % 2 = 1 then (if d.level ≤ 125 then d.level + 2 else d.level)
  else if 2 ≤ d.level then d.level - 2
  else d.level

/-- The end of a bit; after the last one the byte in the buffer is taken. -/
def clockBit (d : Dmc) : Dmc :=
  let d := { d with level := d.nextLevel, shift := d.shift / 2, bits := d.bits - 1 }
  if d.bits = 0 then
    match d.buffer with
    | some v => { d with bits := 8, shift := v.toNat, silent := false, buffer := none }
    | none => { d with bits := 8, silent := true }
  else d

/-- A tick of the timer. -/
def tick (d : Dmc) : Dmc :=
  if 0 < d.timer then { d with timer := d.timer - 1 }
  else { d.clockBit with timer := d.period - 1 }

end Dmc

end Nes.Apu
