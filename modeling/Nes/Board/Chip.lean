import Nes.Board.Mmc1
import Nes.Board.Mmc3
import Nes.Board.Vrc

/-!
# The chips on a board

A `Chip` decides which banks of the program and of the patterns are visible, whether work memory
answers, and when to request an interrupt.  It does not hold memory.
-/

namespace Nes.Board

/-- The kinds of boards and the state of the chip on each. -/
inductive Chip
  /-- No chip; the board has work memory. -/
  | nrom
  /-- The MMC1. -/
  | mmc1 (s : Mmc1)
  /-- A latch for the program bank; the last bank stays visible. -/
  | uxRom (bank : UInt8)
  /-- A latch for the pattern bank, as wide as `mask`. -/
  | cnRom (mask bank : UInt8)
  /-- The MMC3. -/
  | mmc3 (s : Mmc3)
  /-- The VRC2 or VRC4. -/
  | vrc (s : Vrc)
deriving DecidableEq, Repr

namespace Chip

/-- The size of the windows through which the program is seen. -/
def prgWindow : Chip → Nat
  | nrom | cnRom .. => 0x8000
  | mmc1 _ | uxRom _ => 0x4000
  | mmc3 _ | vrc _ => 0x2000

/-- The program bank that an address from `$8000` on shows. -/
def prgBank (c : Chip) (prgSize : Nat) (addr : UInt16) : Nat :=
  match c with
  | nrom | cnRom .. => 0
  | mmc1 s => s.prgBank prgSize addr
  | uxRom bank => if addr < 0xC000 then bank.toNat else prgSize / 0x4000 - 1
  | mmc3 s => s.prgBank prgSize addr
  | vrc s => s.prgBank prgSize addr

/-- The size of the windows through which the patterns are seen. -/
def chrWindow : Chip → Nat
  | nrom | uxRom _ => 0x10000
  | cnRom .. => 0x2000
  | mmc1 _ => 0x1000
  | mmc3 _ | vrc _ => 0x400

/-- The pattern bank that an address shows. -/
def chrBank (c : Chip) (addr : UInt16) : Nat :=
  match c with
  | nrom | uxRom _ => 0
  | cnRom _ bank => bank.toNat
  | mmc1 s => s.chrBank addr
  | mmc3 s => s.chrBank addr
  | vrc s => s.chrBank addr

/-- Work memory answers to reads. -/
def ramReadable : Chip → Bool
  | nrom | vrc _ => true
  | uxRom _ | cnRom .. => false
  | mmc1 s => s.ramEnabled
  | mmc3 s => s.ramEnabled

/-- Work memory accepts writes. -/
def ramWritable : Chip → Bool
  | mmc3 s => s.ramEnabled && !s.ramProtected
  | c => c.ramReadable

/-- A write to `$8000` or above. -/
def write (c : Chip) (addr : UInt16) (v : UInt8) : Chip :=
  match c with
  | nrom => nrom
  | mmc1 s => mmc1 (s.write addr v)
  | uxRom _ => uxRom (v &&& 0x0F)
  | cnRom mask _ => cnRom mask (v &&& mask)
  | mmc3 s => mmc3 (s.write addr v)
  | vrc s => vrc (s.write addr v)

/-- The nametables as the chip wires them, if it does. -/
def mirroring? : Chip → Option Mirroring
  | nrom | uxRom _ | cnRom .. => none
  | mmc1 s => some s.mirroring
  | mmc3 s => some s.mirroring
  | vrc s => some s.mirroring

/-- A line of the picture has been drawn. -/
def clockLine : Chip → Chip
  | mmc3 s => mmc3 { s with lines := s.lines.clock }
  | c => c

/-- A cycle of the processor has passed. -/
def clockCycle : Chip → Chip
  | vrc s => vrc { s with irq := s.irq.clock }
  | c => c

/-- An interrupt is requested. -/
def irq : Chip → Bool
  | mmc3 s => s.lines.pending
  | vrc s => s.irq.pending
  | _ => false

/-- The state after a reset. -/
def reset : Chip → Chip
  | nrom => nrom
  | mmc1 _ => mmc1 {}
  | uxRom _ => uxRom 0
  | cnRom mask _ => cnRom mask 0
  | mmc3 s => mmc3 s.reset
  | vrc s => vrc s.reset

end Chip

end Nes.Board
