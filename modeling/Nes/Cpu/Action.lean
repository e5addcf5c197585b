import Nes.Cpu.Basic
import Nes.Cpu.Instruction

/-!
# What an operation does

Every operation belongs to a class that fixes its traffic on the bus: it reads its operand, or
writes it, or reads and then writes it, or leaves it alone.  `Action` has one constructor for each
class, with the operation's effect on the registers as its argument, and `Mnemonic.action` gives
the action of each operation.  What reaches the bus is thus decided by the class alone, and what an
operation computes by a function on registers alone.
-/

namespace Nes.Cpu

/-- The classes of operations. -/
inductive Action
  /-- Reads the operand. -/
  | read (f : Cpu → UInt8 → Cpu)
  /-- Writes the operand. -/
  | write (value : Cpu → UInt8)
  /-- Writes the operand, masked with the page after its base address. -/
  | writeMasked (f : Cpu → UInt8 × Cpu)
  /-- Replaces the operand, which may be the accumulator. -/
  | modify (f : Cpu → UInt8 → UInt8 × Cpu)
  /-- Works on the registers alone. -/
  | internal (f : Cpu → Cpu)
  /-- Goes to the operand's address if the flags say so. -/
  | branch (taken : Status → Bool)
  /-- Goes to the operand's address. -/
  | jump
  /-- Pushes the address of its last byte and goes to the operand's address. -/
  | call
  /-- Pulls an address and goes to the byte after it. -/
  | returnFromCall
  /-- Pulls the status and the address to go to. -/
  | returnFromInterrupt
  /-- Enters the interrupt handler. -/
  | interrupt
  /-- Pushes a byte. -/
  | push (value : Cpu → UInt8)
  /-- Pulls a byte. -/
  | pull (f : Cpu → UInt8 → Cpu)
  /-- Reads the operand, if there is one, and forgets it. -/
  | skip
  /-- Stops the processor. -/
  | jam

namespace Action

/-- The operations that only read their operand: these take a cycle more when adding the index
crosses a page. -/
def readsOperand : Action → Bool
  | read _ | skip => true
  | _ => false

end Action

/-- A constant that leaks into the accumulator in the two operations whose result is unstable. -/
def unstableMagic : UInt8 := 0xEE

/-- Sets the carry and overflow flags from bits 6 and 5 of the accumulator. -/
def carryFromBit6 (c : Cpu) : Cpu :=
  let bit6 := c.a &&& 0x40 != 0
  let bit5 := c.a &&& 0x20 != 0
  { c with status := { c.status with carry := bit6, overflow := bit6 ^^ bit5 } }

/-- Tests the bits of `v` against the accumulator. -/
def testBits (c : Cpu) (v : UInt8) : Cpu :=
  { c with
    status := { c.status with
      zero := c.a &&& v == 0
      overflow := v &&& 0x40 != 0
      negative := v &&& 0x80 != 0 } }

/-- The action of each operation. -/
def Mnemonic.action : Mnemonic → Action
  -- Loads and stores
  | lda => .read setA
  | ldx => .read setX
  | ldy => .read setY
  | sta => .write (·.a)
  | stx => .write (·.x)
  | sty => .write (·.y)
  -- Arithmetic and logic
  | adc => .read add
  | sbc => .read fun c v => c.add (~~~v)
  | and => .read fun c v => c.setA (c.a &&& v)
  | ora => .read fun c v => c.setA (c.a ||| v)
  | eor => .read fun c v => c.setA (c.a ^^^ v)
  | cmp => .read fun c v => c.compare c.a v
  | cpx => .read fun c v => c.compare c.x v
  | cpy => .read fun c v => c.compare c.y v
  | bit => .read testBits
  -- Shifts, increments and decrements
  | asl => .modify fun c v => c.shiftLeft false v
  | lsr => .modify fun c v => c.shiftRight false v
  | rol => .modify fun c v => c.shiftLeft c.status.carry v
  | ror => .modify fun c v => c.shiftRight c.status.carry v
  | inc => .modify fun c v => c.flagged (v + 1)
  | dec => .modify fun c v => c.flagged (v - 1)
  | inx => .internal fun c => c.setX (c.x + 1)
  | iny => .internal fun c => c.setY (c.y + 1)
  | dex => .internal fun c => c.setX (c.x - 1)
  | dey => .internal fun c => c.setY (c.y - 1)
  -- Control flow
  | jmp => .jump
  | jsr => .call
  | rts => .returnFromCall
  | rti => .returnFromInterrupt
  | brk => .interrupt
  | bcc => .branch (!·.carry)
  | bcs => .branch (·.carry)
  | bne => .branch (!·.zero)
  | beq => .branch (·.zero)
  | bpl => .branch (!·.negative)
  | bmi => .branch (·.negative)
  | bvc => .branch (!·.overflow)
  | bvs => .branch (·.overflow)
  -- Flags
  | clc => .internal fun c => { c with status := { c.status with carry := false } }
  | sec => .internal fun c => { c with status := { c.status with carry := true } }
  | cli => .internal fun c => { c with status := { c.status with interruptDisable := false } }
  | sei => .internal fun c => { c with status := { c.status with interruptDisable := true } }
  | clv => .internal fun c => { c with status := { c.status with overflow := false } }
  | cld => .internal fun c => { c with status := { c.status with decimal := false } }
  | sed => .internal fun c => { c with status := { c.status with decimal := true } }
  -- Transfers and the stack
  | tax => .internal fun c => c.setX c.a
  | tay => .internal fun c => c.setY c.a
  | txa => .internal fun c => c.setA c.x
  | tya => .internal fun c => c.setA c.y
  | tsx => .internal fun c => c.setX c.sp
  | txs => .internal fun c => { c with sp := c.x }
  | pha => .push (·.a)
  | php => .push (·.status.pushed true)
  | pla => .pull setA
  | plp => .pull fun c v => { c with status := .pulled v }
  | nop => .skip
  -- Undocumented: a shift or a count, then arithmetic on its result
  | slo => .modify fun c v => let (v, c) := c.shiftLeft false v; (v, c.setA (c.a ||| v))
  | rla => .modify fun c v => let (v, c) := c.shiftLeft c.status.carry v; (v, c.setA (c.a &&& v))
  | sre => .modify fun c v => let (v, c) := c.shiftRight false v; (v, c.setA (c.a ^^^ v))
  | rra => .modify fun c v => let (v, c) := c.shiftRight c.status.carry v; (v, c.add v)
  | dcp => .modify fun c v => (v - 1, c.compare c.a (v - 1))
  | isc => .modify fun c v => (v + 1, c.add (~~~(v + 1)))
  -- Undocumented: loads and stores
  | lax => .read fun c v => { c with x := v }.setA v
  | sax => .write fun c => c.a &&& c.x
  | las => .read fun c v => { c with x := v &&& c.sp, sp := v &&& c.sp }.setA (v &&& c.sp)
  | sha => .writeMasked fun c => (c.a &&& c.x, c)
  | shx => .writeMasked fun c => (c.x, c)
  | shy => .writeMasked fun c => (c.y, c)
  | tas => .writeMasked fun c => (c.a &&& c.x, { c with sp := c.a &&& c.x })
  -- Undocumented: immediate operands
  | anc => .read fun c v =>
    let c := c.setA (c.a &&& v)
    { c with status := { c.status with carry := c.a &&& 0x80 != 0 } }
  | alr => .read fun c v => let (v, c) := c.shiftRight false (c.a &&& v); { c with a := v }
  | arr => .read fun c v =>
    carryFromBit6 (c.setA ((c.a &&& v) >>> 1 ||| (if c.status.carry then 0x80 else 0)))
  | axs => .read fun c v => let c := c.compare (c.a &&& c.x) v; c.setX ((c.a &&& c.x) - v)
  | xaa => .read fun c v => c.setA ((c.a ||| unstableMagic) &&& c.x &&& v)
  | lxa => .read fun c v =>
    let v := (c.a ||| unstableMagic) &&& v
    { c with x := v }.setA v
  | jam => .jam

/-- An indexed operation that only reads takes a cycle more when the index crosses a page. -/
def Instruction.hasPagePenalty (i : Instruction) : Bool :=
  i.mode.isIndexed && i.mnemonic.action.readsOperand

end Nes.Cpu
