import Nes.Board.Bank
import Nes.Mirroring

/-!
# The MMC3

Eight bank registers, reached through a select register, and a counter of picture lines that can
request an interrupt.  The counter (`LineCounter`) is clocked once for every line drawn: it starts
over from its latch when it stands at zero or when a reload was asked for, and otherwise counts
down; when it then stands at zero and is enabled, it requests an interrupt.
-/

namespace Nes.Board

/-- A counter of picture lines. -/
structure LineCounter where
  /-- Where the counter starts over from. -/
  latch : UInt8 := 0
  /-- The lines left. -/
  counter : UInt8 := 0
  /-- The next clock starts over. -/
  reload : Bool := false
  /-- Requests are made. -/
  enabled : Bool := false
  /-- An interrupt is requested. -/
  pending : Bool := false
deriving DecidableEq, Repr, Inhabited

namespace LineCounter

/-- One line has been drawn. -/
def clock (c : LineCounter) : LineCounter :=
  let c :=
    if c.counter == 0 || c.reload then { c with counter := c.latch, reload := false }
    else { c with counter := c.counter - 1 }
  if c.counter == 0 && c.enabled then { c with pending := true } else c

/-- The counter starts over at the next clock. -/
def requestReload (c : LineCounter) : LineCounter := { c with counter := 0, reload := true }

/-- No more requests are made, and one that was made is withdrawn. -/
def disable (c : LineCounter) : LineCounter := { c with enabled := false, pending := false }

/-- Requests are made from now on. -/
def enable (c : LineCounter) : LineCounter := { c with enabled := true }

/-- The state after a reset, which leaves the latch alone. -/
def reset (c : LineCounter) : LineCounter := { latch := c.latch }

end LineCounter

/-- The state of an MMC3. -/
structure Mmc3 where
  /-- Bits 0 to 2 select the bank register that is written, bit 6 swaps program windows and bit 7
  the halves of the patterns. -/
  select : UInt8 := 0
  /-- Registers 0 to 5 select pattern banks, 6 and 7 program banks. -/
  regs : Vector UInt8 8 := #v[0, 2, 4, 5, 6, 7, 0, 1]
  /-- The nametables as wired now. -/
  mirroring : Mirroring
  /-- The wiring of the nametables cannot be changed. -/
  fixedMirroring : Bool
  /-- Work memory answers. -/
  ramEnabled : Bool := true
  /-- Work memory cannot be written. -/
  ramProtected : Bool := false
  /-- The counter of picture lines. -/
  lines : LineCounter := {}
deriving DecidableEq, Repr

namespace Mmc3

/-- The chip at power-on, on a board wired as given. -/
def powerOn (mirroring : Mirroring) : Mmc3 :=
  { mirroring, fixedMirroring := mirroring == .fourScreen }

/-- A write to `$8000` or above. -/
def write (s : Mmc3) (addr : UInt16) (v : UInt8) : Mmc3 :=
  match (addr >>> 13 &&& 3).toNat, addr &&& 1 == 0 with
  | 0, true => { s with select := v }
  | 0, false =>
    { s with
      regs := s.regs.set (s.select.toNat % 8) v (Nat.mod_lt _ (by decide)) }
  | 1, true =>
    if s.fixedMirroring then s
    else { s with mirroring := if v &&& 1 == 0 then .vertical else .horizontal }
  | 1, false => { s with ramEnabled := v &&& 0x80 != 0, ramProtected := v &&& 0x40 != 0 }
  | 2, true => { s with lines := { s.lines with latch := v } }
  | 2, false => { s with lines := s.lines.requestReload }
  | _, true => { s with lines := s.lines.disable }
  | _, false => { s with lines := s.lines.enable }

/-- The 8 KiB bank that an address shows, of a program of `prgSize` bytes. -/
def prgBank (s : Mmc3) (prgSize : Nat) (addr : UInt16) : Nat :=
  let count := bankCount 0x2000 prgSize
  match (addr >>> 13 &&& 3).toNat, s.select &&& 0x40 != 0 with
  | 0, false | 2, true => (s.regs[6] &&& 0x3F).toNat
  | 0, true | 2, false => count - 2
  | 1, _ => (s.regs[7] &&& 0x3F).toNat
  | _, _ => count - 1

/-- The 1 KiB pattern bank that an address shows. -/
def chrBank (s : Mmc3) (addr : UInt16) : Nat :=
  let slot := addr >>> 10 &&& 7
  let slot := if s.select &&& 0x80 != 0 then slot ^^^ 4 else slot
  match slot.toNat with
  | 0 => (s.regs[0] &&& 0xFE).toNat
  | 1 => (s.regs[0] ||| 0x01).toNat
  | 2 => (s.regs[1] &&& 0xFE).toNat
  | 3 => (s.regs[1] ||| 0x01).toNat
  | 4 => s.regs[2].toNat
  | 5 => s.regs[3].toNat
  | 6 => s.regs[4].toNat
  | _ => s.regs[5].toNat

/-- The state after a reset: the wiring of the nametables, the protection of work memory and the
latch stay. -/
def reset (s : Mmc3) : Mmc3 :=
  { s with select := 0, regs := #v[0, 2, 4, 5, 6, 7, 0, 1], lines := s.lines.reset }

end Mmc3

end Nes.Board
