import Nes.Cpu.Status

/-!
# The registers of the processor

`Cpu` holds the registers of the 6502 and the arithmetic on them.  Addition with carry is the one
sum behind `ADC`, `SBC`, `RRA` and `ISC` (`Cpu.add`); comparison is a subtraction whose difference
is dropped (`Cpu.compare`); the four shifts are a left and a right shift with a chosen bit moved in
(`Cpu.shiftLeft`, `Cpu.shiftRight`).
-/

namespace Nes

/-- The processor: its registers and what it knows of its own past. -/
structure Cpu where
  /-- The accumulator. -/
  a : UInt8 := 0
  /-- The first index register. -/
  x : UInt8 := 0
  /-- The second index register. -/
  y : UInt8 := 0
  /-- The stack pointer, an offset into page 1. -/
  sp : UInt8 := 0xFD
  /-- The program counter. -/
  pc : UInt16 := 0
  /-- The flags. -/
  status : Cpu.Status := .powerOn
  /-- The cycles spent in instructions and interrupt entries. -/
  cycles : Nat := 0
  /-- Stopped by a `JAM`; only a reset starts the processor again. -/
  halted : Bool := false
deriving DecidableEq, Repr, Inhabited

namespace Cpu

/-- The processor at power-on. -/
def powerOn : Cpu := {}

/-- Loads the accumulator; the flags describe the new value. -/
@[inline] def setA (c : Cpu) (v : UInt8) : Cpu :=
  { c with a := v, status := c.status.withResult v }

/-- Loads `X`; the flags describe the new value. -/
@[inline] def setX (c : Cpu) (v : UInt8) : Cpu :=
  { c with x := v, status := c.status.withResult v }

/-- Loads `Y`; the flags describe the new value. -/
@[inline] def setY (c : Cpu) (v : UInt8) : Cpu :=
  { c with y := v, status := c.status.withResult v }

/-- Adds a byte and the carry to the accumulator.  Carry is the ninth bit of the sum; overflow says
that two operands of one sign gave a result of the other. -/
def add (c : Cpu) (v : UInt8) : Cpu :=
  let sum := c.a.toNat + v.toNat + c.status.carry.toNat
  let result := UInt8.ofNat sum
  let overflow := ~~~(c.a ^^^ v) &&& (c.a ^^^ result) &&& 0x80 != 0
  let status := { c.status with carry := decide (sum > 0xFF), overflow }
  { c with a := result, status := status.withResult result }

/-- Sets the flags as `register - v` does, with carry for "no borrow". -/
def compare (c : Cpu) (register v : UInt8) : Cpu :=
  let status := { c.status with carry := decide (register ≥ v) }
  { c with status := status.withResult (register - v) }

/-- Shifts a byte left and moves `low` in; carry is the bit moved out. -/
def shiftLeft (c : Cpu) (low : Bool) (v : UInt8) : UInt8 × Cpu :=
  let result := v <<< 1 ||| (if low then 0x01 else 0)
  let status := { c.status with carry := v &&& 0x80 != 0 }
  (result, { c with status := status.withResult result })

/-- Shifts a byte right and moves `high` in; carry is the bit moved out. -/
def shiftRight (c : Cpu) (high : Bool) (v : UInt8) : UInt8 × Cpu :=
  let result := v >>> 1 ||| (if high then 0x80 else 0)
  let status := { c.status with carry := v &&& 0x01 != 0 }
  (result, { c with status := status.withResult result })

/-- The flags describe `v`, which is also the result. -/
@[inline] def flagged (c : Cpu) (v : UInt8) : UInt8 × Cpu :=
  (v, { c with status := c.status.withResult v })

end Cpu

end Nes
