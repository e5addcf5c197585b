import Nes.Apu.Envelope
import Nes.Apu.Length

/-!
# The noise channel

A shift register of 15 bits with feedback decides in each period whether the channel is heard.
-/

namespace Nes.Apu

/-- The noise channel. -/
structure Noise where
  /-- The feedback comes from bit 6 and not from bit 1. -/
  short : Bool := false
  /-- The ticks left of the period. -/
  timer : Nat := 0
  /-- The ticks of a period. -/
  period : Nat := 4
  /-- The shift register. -/
  shift : Nat := 1
  /-- The envelope. -/
  envelope : Envelope := {}
  /-- The length counter. -/
  length : Length := {}
deriving DecidableEq, Repr, Inhabited

namespace Noise

/-- The periods that a register selects by its low four bits. -/
def periods : Vector Nat 16 :=
  #v[4, 8, 16, 32, 64, 96, 128, 160, 202, 254, 380, 508, 762, 1016, 2034, 4068]

theorem periods_pos (i : Fin 16) : 0 < periods.get i := by
  revert i
  decide

/-- A write to register `register % 4` of the channel. -/
def write (n : Noise) (register : Nat) (v : UInt8) : Noise :=
  match register % 4 with
  | 0 =>
    { n with
      envelope := n.envelope.write v
      length := { n.length with halt := v &&& 0x20 != 0 } }
  | 1 => n
  | 2 =>
    { n with
      short := v &&& 0x80 != 0
      period := periods.get (Bits.low4 v) }
  | _ => { n with length := n.length.load v, envelope := n.envelope.restart }

/-- The register after a shift: the bit moved in at the top is the sum of bit 0 and of the bit that
the feedback comes from. -/
def shifted (short : Bool) (s : Nat) : Nat :=
  let tap := if short then s / 64 else s / 2
  s / 2 + (s + tap) % 2 * 0x4000

/-- A tick of the timer. -/
def tick (n : Noise) : Noise :=
  if 0 < n.timer then { n with timer := n.timer - 1 }
  else { n with timer := n.period - 1, shift := shifted n.short n.shift }

/-- The level of the channel. -/
def output (n : Noise) : Nat :=
  if n.length.active && n.shift % 2 == 0 then n.envelope.output else 0

end Noise

end Nes.Apu
