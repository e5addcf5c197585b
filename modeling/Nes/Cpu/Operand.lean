import Nes.Bus
import Nes.Cpu.Basic
import Nes.Cpu.Instruction

/-!
# Operand addresses

`Operand.resolve` finds the address that an instruction works on, reading the bytes after the opcode
and, for the indirect modes, a pointer.  A pointer never leaves its page: in the zero page it wraps
from `$FF` to `$00`, and the pointer of an indirect jump takes its high byte from the same page as
its low byte.
-/

namespace Nes.Cpu

/-- The address of an operand. -/
structure Operand where
  /-- The effective address. -/
  addr : UInt16
  /-- The address before indexing; for a branch the address of the next instruction. -/
  base : UInt16
deriving DecidableEq, Repr

namespace Operand

/-- An operand whose mode adds no index. -/
@[inline] def plain (addr : UInt16) : Operand := ⟨addr, addr⟩

/-- Adding the index, or the branch offset, changed the page. -/
@[inline] def crossesPage (o : Operand) : Bool := pageCrossed o.base o.addr

/-- The address `offset` bytes from `base`, with the offset taken as a signed byte. -/
def branchTarget (base : UInt16) (offset : UInt8) : UInt16 :=
  base + offset.toUInt16 + (if offset ≥ 0x80 then 0xFF00 else 0)

/-- The address after `addr` on the same page. -/
def nextOnPage (addr : UInt16) : UInt16 := (addr &&& 0xFF00) ||| ((addr + 1) &&& 0x00FF)

variable {β : Type} [Bus β]

/-- Finds the operand of an instruction with the given mode whose first operand byte, if it has
one, is at `pc`. -/
@[specialize] def resolve (mode : Mode) (c : Cpu) (pc : UInt16) (bus : β) : Operand × β :=
  match mode with
  | .implied | .accumulator => (plain 0, bus)
  | .immediate => (plain pc, bus)
  | .zeroPage =>
    let (zp, bus) := Bus.read bus pc
    (plain zp.toUInt16, bus)
  | .zeroPageX =>
    let (zp, bus) := Bus.read bus pc
    (plain (zp + c.x).toUInt16, bus)
  | .zeroPageY =>
    let (zp, bus) := Bus.read bus pc
    (plain (zp + c.y).toUInt16, bus)
  | .absolute =>
    let (addr, bus) := Bus.readWord bus pc
    (plain addr, bus)
  | .absoluteX =>
    let (base, bus) := Bus.readWord bus pc
    (⟨base + c.x.toUInt16, base⟩, bus)
  | .absoluteY =>
    let (base, bus) := Bus.readWord bus pc
    (⟨base + c.y.toUInt16, base⟩, bus)
  | .indirect =>
    let (pointer, bus) := Bus.readWord bus pc
    let (addr, bus) := Bus.readPair bus pointer (nextOnPage pointer)
    (plain addr, bus)
  | .indirectX =>
    let (zp, bus) := Bus.read bus pc
    let pointer := zp + c.x
    let (addr, bus) := Bus.readPair bus pointer.toUInt16 (pointer + 1).toUInt16
    (plain addr, bus)
  | .indirectY =>
    let (zp, bus) := Bus.read bus pc
    let (base, bus) := Bus.readPair bus zp.toUInt16 (zp + 1).toUInt16
    (⟨base + c.y.toUInt16, base⟩, bus)
  | .relative =>
    let (offset, bus) := Bus.read bus pc
    (⟨branchTarget (pc + 1) offset, pc + 1⟩, bus)

end Operand

end Nes.Cpu
