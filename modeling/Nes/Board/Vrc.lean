import Nes.Bits
import Nes.Board.Bank
import Nes.Mirroring

/-!
# The VRC2 and VRC4

Two chips of one family.  Boards connect the chip's two select lines to different address lines
(`Wiring.select`), so that one write to a board reaches register 0, 1, 2 or 3 of a page of `$1000`
addresses by rules of its own.  Pattern banks have nine bits, written in two parts.

The VRC4 counts cycles, or lines of 341 thirds of a cycle, up to an overflow that requests an
interrupt (`CycleCounter.clock`).  The part of a line that an overflow leaves over is kept for the
next one.
-/

namespace Nes.Board

/-- A counter of cycles or lines. -/
structure CycleCounter where
  /-- Where the counter starts over from. -/
  latch : UInt8 := 0
  /-- The count; it overflows after 255. -/
  counter : UInt8 := 0
  /-- The thirds of a cycle left of the line. -/
  prescaler : Nat := 0
  /-- Counting goes on. -/
  enabled : Bool := false
  /-- Counting goes on after an acknowledgement. -/
  enabledAfterAck : Bool := false
  /-- Every cycle counts, and not only every line. -/
  cycleMode : Bool := false
  /-- An interrupt is requested. -/
  pending : Bool := false
deriving DecidableEq, Repr, Inhabited

namespace CycleCounter

/-- The thirds of a cycle in a line. -/
def lineLength : Nat := 341

/-- Sets the mode, withdraws a request and, if counting is enabled, starts over. -/
def control (c : CycleCounter) (v : UInt8) : CycleCounter :=
  let c := { c with
    enabledAfterAck := v &&& 0x01 != 0
    enabled := v &&& 0x02 != 0
    cycleMode := v &&& 0x04 != 0
    pending := false }
  if c.enabled then { c with counter := c.latch, prescaler := lineLength } else c

/-- Withdraws a request. -/
def acknowledge (c : CycleCounter) : CycleCounter :=
  { c with pending := false, enabled := c.enabledAfterAck }

/-- Counts one up, or starts over with a request. -/
def advance (c : CycleCounter) : CycleCounter :=
  if c.counter == 0xFF then { c with counter := c.latch, pending := true }
  else { c with counter := c.counter + 1 }

/-- One cycle has passed. -/
def clock (c : CycleCounter) : CycleCounter :=
  if !c.enabled then c
  else if c.cycleMode then c.advance
  else if c.prescaler ≤ 3 then { c with prescaler := c.prescaler + lineLength - 3 }.advance
  else { c with prescaler := c.prescaler - 3 }

end CycleCounter

/-- The ways in which boards connect the select lines. -/
inductive Wiring
  /-- VRC4a and VRC4c: `A1` or `A6`, and `A2` or `A7`. -/
  | vrc4ac
  /-- VRC2a: `A1` and `A0`. -/
  | vrc2a
  /-- VRC2b, VRC4e and VRC4f: `A0` or `A2`, and `A1` or `A3`. -/
  | vrc2bOr4ef
  /-- VRC2c, VRC4b and VRC4d: `A1` or `A3`, and `A0` or `A2`. -/
  | vrc2cOr4bd
deriving DecidableEq, Repr, Inhabited

namespace Wiring

/-- The levels of the chip's two select lines, the lower one first. -/
def select (w : Wiring) (addr : UInt16) : Bool × Bool :=
  let line (mask : UInt16) : Bool := addr &&& mask != 0
  match w with
  | vrc4ac => (line 0x0042, line 0x0084)
  | vrc2a => (line 0x0002, line 0x0001)
  | vrc2bOr4ef => (line 0x0005, line 0x000A)
  | vrc2cOr4bd => (line 0x000A, line 0x0005)

end Wiring

/-- The state of a VRC2 or VRC4. -/
structure Vrc where
  /-- How the board connects the select lines. -/
  wiring : Wiring
  /-- The bank of the first program window. -/
  prg0 : UInt8 := 0
  /-- The bank of the second program window. -/
  prg1 : UInt8 := 0
  /-- The first and the third program window change places. -/
  swapped : Bool := false
  /-- The pattern banks, of nine bits. -/
  chr : Vector Nat 8 := .replicate 8 0
  /-- The nametables as wired now. -/
  mirroring : Mirroring
  /-- The counter of the VRC4. -/
  irq : CycleCounter := {}
deriving DecidableEq, Repr

namespace Vrc

/-- The chip is the VRC2 that has one mirroring bit, no swap, no counter, and patterns without
their lowest address line. -/
def isVrc2a (s : Vrc) : Bool := s.wiring == .vrc2a

/-- Writes the low four or the high five bits of the bank of a pattern window. -/
def writeChr (s : Vrc) (slot : Fin 8) (high : Bool) (v : UInt8) : Vrc :=
  let bank := s.chr[slot]
  let bank := if high then v.toNat % 32 * 16 + bank % 16 else bank / 16 * 16 + v.toNat % 16
  { s with chr := s.chr.set slot bank }

/-- Wires the nametables. -/
def writeMirroring (s : Vrc) (v : UInt8) : Vrc :=
  let mode : UInt8 := if s.isVrc2a then v &&& 1 else v &&& 3
  let mirroring := match mode.toNat with
    | 0 => .vertical
    | 1 => .horizontal
    | 2 => .oneScreenLower
    | _ => .oneScreenUpper
  { s with mirroring }

/-- Writes a register of the counter. -/
def writeIrq (s : Vrc) (select : Bool × Bool) (v : UInt8) : Vrc :=
  let c := s.irq
  let irq := match select with
    | (false, false) => { c with latch := c.latch / 16 * 16 + v % 16 }
    | (true, false) => { c with latch := c.latch % 16 + v * 16 }
    | (false, true) => c.control v
    | (true, true) => c.acknowledge
  { s with irq }

/-- A write to `$8000` or above. -/
def write (s : Vrc) (addr : UInt16) (v : UInt8) : Vrc :=
  let (low, high) := s.wiring.select addr
  match (addr >>> 12).toNat with
  | 0x8 => { s with prg0 := v }
  | 0x9 =>
    if s.isVrc2a || !high then s.writeMirroring v
    else if low then s else { s with swapped := v &&& 0x02 != 0 }
  | 0xA => { s with prg1 := v }
  | 0xB => s.writeChr (if high then 1 else 0) low v
  | 0xC => s.writeChr (if high then 3 else 2) low v
  | 0xD => s.writeChr (if high then 5 else 4) low v
  | 0xE => s.writeChr (if high then 7 else 6) low v
  | _ => if s.isVrc2a then s else s.writeIrq (low, high) v

/-- The 8 KiB bank that an address shows, of a program of `prgSize` bytes. -/
def prgBank (s : Vrc) (prgSize : Nat) (addr : UInt16) : Nat :=
  let count := bankCount 0x2000 prgSize
  match (addr >>> 13 &&& 3).toNat, s.swapped with
  | 0, false | 2, true => (s.prg0 &&& 0x1F).toNat
  | 0, true | 2, false => count - 2
  | 1, _ => (s.prg1 &&& 0x1F).toNat
  | _, _ => count - 1

/-- The 1 KiB pattern bank that an address shows. -/
def chrBank (s : Vrc) (addr : UInt16) : Nat :=
  let slot : Fin 8 := ⟨addr.toNat / 0x400 % 8, Nat.mod_lt _ (by decide)⟩
  let bank := s.chr[slot]
  if s.isVrc2a then bank / 2 else bank

/-- The state after a reset: the wiring of the nametables stays. -/
def reset (s : Vrc) : Vrc := { wiring := s.wiring, mirroring := s.mirroring }

end Vrc

end Nes.Board
