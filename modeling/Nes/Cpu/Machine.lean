import Nes.Bus
import Nes.Cpu.Action
import Nes.Cpu.Disassembly
import Nes.Cpu.Operand

/-!
# The processor at work

A `Machine β` is a processor wired to a bus of type `β`.  `Machine.step` executes one instruction:
it fetches the opcode, resolves the operand and lets the operation's `Action` do its work;
`Machine.interrupt` enters an interrupt handler and `Machine.reset` starts the program.  The
processor never lets time pass for the bus; whoever steps it does that, by the number of cycles that
it returns.

`Machine.stepTraced` executes an instruction in the same way, but first writes a line about it, for
which it reads the instruction's bytes a second time.
-/

namespace Nes

/-- The error of a processor that met a `JAM`. -/
structure Cpu.Jam where
  /-- The opcode that the program counter points at. -/
  opcode : UInt8
  /-- The program counter. -/
  addr : UInt16
deriving DecidableEq, Repr

/-- The kinds of interrupts. -/
inductive Cpu.Interrupt
  /-- The interrupt that cannot be masked. -/
  | nmi
  /-- A request that the interrupt-disable flag masks. -/
  | irq
  /-- The entry that `BRK` makes; the program counter is already past the padding byte. -/
  | brk
deriving DecidableEq, Repr

namespace Cpu.Interrupt

/-- Where the address of the reset routine is kept. -/
def resetVector : UInt16 := 0xFFFC

/-- Where the address of a kind's handler is kept. -/
def vector : Interrupt → UInt16
  | nmi => 0xFFFA
  | irq | brk => 0xFFFE

end Cpu.Interrupt

/-- A processor wired to a bus. -/
structure Machine (β : Type) where
  /-- The processor. -/
  cpu : Cpu
  /-- All else. -/
  bus : β

namespace Machine

open Cpu

variable {β : Type} [Bus β]

/-- The stack's address that the stack pointer `sp` stands for. -/
@[inline] def stackAddr (sp : UInt8) : UInt16 := 0x0100 ||| sp.toUInt16

/-- Pushes a byte. -/
@[specialize] def push (m : Machine β) (v : UInt8) : Machine β :=
  let ⟨cpu, bus⟩ := m
  ⟨{ cpu with sp := cpu.sp - 1 }, Bus.write bus (stackAddr cpu.sp) v⟩

/-- Pushes a word, its high byte first. -/
@[specialize] def pushWord (m : Machine β) (w : UInt16) : Machine β :=
  (m.push (highByte w)).push (lowByte w)

/-- Pulls a byte. -/
@[specialize] def pull (m : Machine β) : UInt8 × Machine β :=
  let ⟨cpu, bus⟩ := m
  let sp := cpu.sp + 1
  let (v, bus) := Bus.read bus (stackAddr sp)
  (v, ⟨{ cpu with sp }, bus⟩)

/-- Pulls a word, its low byte first. -/
@[specialize] def pullWord (m : Machine β) : UInt16 × Machine β :=
  let (low, m) := m.pull
  let (high, m) := m.pull
  (wordOf low high, m)

/-- Goes to an address. -/
@[inline] def jump (m : Machine β) (addr : UInt16) : Machine β :=
  let ⟨cpu, bus⟩ := m
  ⟨{ cpu with pc := addr }, bus⟩

/-- Lets time pass on the processor's own counter. -/
@[inline] def spend (m : Machine β) (cycles : Nat) : Machine β :=
  let ⟨cpu, bus⟩ := m
  ⟨{ cpu with cycles := cpu.cycles + cycles }, bus⟩

/-- Pushes the program counter and the status, masks interrupts and goes to the handler. -/
@[specialize] def enter (m : Machine β) (kind : Interrupt) : Machine β :=
  let m := m.pushWord m.cpu.pc
  let ⟨cpu, bus⟩ := m.push (m.cpu.status.pushed (kind == .brk))
  let (pc, bus) := Bus.readWord bus kind.vector
  ⟨{ cpu with pc, status := { cpu.status with interruptDisable := true } }, bus⟩

/-- Enters the handler of an interrupt and tells the cycles used: 7, or none for a masked
request. -/
@[specialize] def interrupt (m : Machine β) (kind : Interrupt) : Nat × Machine β :=
  if kind == .irq && m.cpu.status.interruptDisable then (0, m) else (7, (m.enter kind).spend 7)

/-- Starts the program at the address that the reset vector holds. -/
@[specialize] def reset (m : Machine β) : Machine β :=
  let (pc, bus) := Bus.readWord m.bus Interrupt.resetVector
  ⟨{ Cpu.powerOn with pc, cycles := 7 }, bus⟩

/-- Lets an operation work on its operand, with the program counter at the next instruction.  The
number is that of the extra cycles of a branch. -/
@[specialize] def perform (m : Machine β) (action : Action) (mode : Mode) (o : Operand) :
    Nat × Machine β :=
  let ⟨cpu, bus⟩ := m
  match action with
  | .read f =>
    let (v, bus) := Bus.read bus o.addr
    (0, ⟨f cpu v, bus⟩)
  | .write value => (0, ⟨cpu, Bus.write bus o.addr (value cpu)⟩)
  | .writeMasked f =>
    let (v, cpu) := f cpu
    let v := v &&& (highByte o.base + 1)
    let addr := if o.crossesPage then wordOf (lowByte o.addr) v else o.addr
    (0, ⟨cpu, Bus.write bus addr v⟩)
  | .modify f =>
    if mode == .accumulator then
      let (v, cpu) := f cpu cpu.a
      (0, ⟨{ cpu with a := v }, bus⟩)
    else
      let (v, bus) := Bus.read bus o.addr
      let (v, cpu) := f cpu v
      (0, ⟨cpu, Bus.write bus o.addr v⟩)
  | .internal f => (0, ⟨f cpu, bus⟩)
  | .branch taken =>
    if taken cpu.status then
      (if pageCrossed cpu.pc o.addr then 2 else 1, jump ⟨cpu, bus⟩ o.addr)
    else (0, ⟨cpu, bus⟩)
  | .jump => (0, jump ⟨cpu, bus⟩ o.addr)
  | .call => (0, (pushWord ⟨cpu, bus⟩ (cpu.pc - 1)).jump o.addr)
  | .returnFromCall =>
    let (addr, m) := pullWord ⟨cpu, bus⟩
    (0, m.jump (addr + 1))
  | .returnFromInterrupt =>
    let (status, ⟨cpu, bus⟩) := pull ⟨cpu, bus⟩
    let (addr, m) := pullWord ⟨{ cpu with status := .pulled status }, bus⟩
    (0, m.jump addr)
  | .interrupt => (0, (jump ⟨cpu, bus⟩ (cpu.pc + 1)).enter .brk)
  | .push value => (0, push ⟨cpu, bus⟩ (value cpu))
  | .pull f =>
    let (v, ⟨cpu, bus⟩) := pull ⟨cpu, bus⟩
    (0, ⟨f cpu v, bus⟩)
  | .skip =>
    if mode == .implied then (0, ⟨cpu, bus⟩) else
      let (_, bus) := Bus.read bus o.addr
      (0, ⟨cpu, bus⟩)
  | .jam => (0, ⟨cpu, bus⟩)

/-- Executes the instruction at the program counter, whose opcode has been fetched. -/
@[specialize] def execute (m : Machine β) (opcode : UInt8) : Except Jam Nat × Machine β :=
  let i := Instruction.ofOpcode opcode
  let ⟨cpu, bus⟩ := m
  match i.mnemonic.action with
  | .jam => (.error ⟨opcode, cpu.pc⟩, ⟨{ cpu with halted := true }, bus⟩)
  | action =>
    let (o, bus) := Operand.resolve i.mode cpu (cpu.pc + 1) bus
    let m := jump ⟨cpu, bus⟩ (cpu.pc + UInt16.ofNat i.length)
    let (extra, m) := m.perform action i.mode o
    let cycles := i.cycles + (if i.hasPagePenalty && o.crossesPage then 1 else 0) + extra
    (.ok cycles, m.spend cycles)

/-- Reads the opcode at the program counter. -/
@[specialize] def fetch (m : Machine β) : UInt8 × Machine β :=
  let ⟨cpu, bus⟩ := m
  let (opcode, bus) := Bus.read bus cpu.pc
  (opcode, ⟨cpu, bus⟩)

/-- Executes one instruction and tells the cycles it took.  A processor that has met a `JAM`
fetches, and fails. -/
@[specialize] def step (m : Machine β) : Except Jam Nat × Machine β :=
  let (opcode, m) := m.fetch
  if m.cpu.halted then (.error ⟨opcode, m.cpu.pc⟩, m) else m.execute opcode

/-- The line of a trace: the instruction and the registers before it. -/
def traceLine (c : Cpu) (bytes : List UInt8) : String :=
  Disassembly.Line.column 42 (Disassembly.decode bytes c.pc).text ++
    "A:" ++ Hexadecimal.byte c.a ++ " X:" ++ Hexadecimal.byte c.x ++
    " Y:" ++ Hexadecimal.byte c.y ++ " P:" ++ Hexadecimal.byte c.status.toByte ++
    " SP:" ++ Hexadecimal.byte c.sp ++ " CYC:" ++ toString c.cycles

/-- Executes one instruction as `step` does, after reading its bytes once more for the line of the
trace.  There is no line when the processor has stopped. -/
@[specialize] def stepTraced (m : Machine β) : (Except Jam Nat × Option String) × Machine β :=
  let (opcode, m) := m.fetch
  if m.cpu.halted then ((.error ⟨opcode, m.cpu.pc⟩, none), m) else
    let ⟨cpu, bus⟩ := m
    let (bytes, bus) := Bus.readList bus cpu.pc (Instruction.ofOpcode opcode).length
    let (result, m) := execute ⟨cpu, bus⟩ opcode
    ((result, some (traceLine cpu bytes)), m)

end Machine

end Nes
