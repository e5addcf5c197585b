import Nes.Bus
import Nes.Cpu.Instruction
import Nes.Cpu.Operand
import Nes.Hexadecimal

/-!
# Disassembly

`Disassembly.decode` reads one instruction from a list of bytes, and `Disassembly.sweep` a whole
program, one instruction after the other.  An instruction cut off by the end of the program is
listed with the bytes that are there; the missing ones count as zero.
-/

namespace Nes.Cpu.Disassembly

/-- One line of a listing. -/
structure Line where
  /-- Where the instruction lies. -/
  addr : UInt16
  /-- Its bytes, as far as the program holds them. -/
  bytes : List UInt8
  /-- Its first byte. -/
  opcode : UInt8
  /-- The first operand byte, or zero. -/
  low : UInt8
  /-- The second operand byte, or zero. -/
  high : UInt8
deriving DecidableEq, Repr

namespace Line

/-- What the opcode stands for. -/
def instruction (l : Line) : Instruction := .ofOpcode l.opcode

/-- The three letters of the operation. -/
def mnemonic (l : Line) : String := l.instruction.mnemonic.name

/-- The opcode is not a documented one. -/
def undocumented (l : Line) : Bool := !Instruction.isDocumented l.opcode

/-- Where a branch on this line goes. -/
def branchTarget (l : Line) : UInt16 := Operand.branchTarget (l.addr + 2) l.low

/-- The operand in assembler notation; branches show their target. -/
def operand (l : Line) : String :=
  let byte := "$" ++ Hexadecimal.byte l.low
  let word := "$" ++ Hexadecimal.word (wordOf l.low l.high)
  match l.instruction.mode with
  | .implied => ""
  | .accumulator => "A"
  | .immediate => "#" ++ byte
  | .zeroPage => byte
  | .zeroPageX => byte ++ ",X"
  | .zeroPageY => byte ++ ",Y"
  | .absolute => word
  | .absoluteX => word ++ ",X"
  | .absoluteY => word ++ ",Y"
  | .indirect => "(" ++ word ++ ")"
  | .indirectX => "(" ++ byte ++ ",X)"
  | .indirectY => "(" ++ byte ++ "),Y"
  | .relative => "$" ++ Hexadecimal.word l.branchTarget

/-- The bytes as hexadecimal pairs with a blank between two. -/
def bytesText (l : Line) : String := " ".intercalate (l.bytes.map Hexadecimal.byte)

/-- The sign before the operation: a star marks undocumented opcodes. -/
def marker (l : Line) : String := if l.undocumented then "*" else " "

/-- The operand with a blank before it, or nothing. -/
def operandText (l : Line) : String := if l.operand.isEmpty then "" else " " ++ l.operand

/-- A text with blanks after it up to `width` characters. -/
def column (width : Nat) (text : String) : String := text.pushn ' ' (width - text.length)

/-- The line as listings show it, such as `C000  4C F5 C5  JMP $C5F5`. -/
def text (l : Line) : String :=
  Hexadecimal.word l.addr ++ "  " ++ column 8 l.bytesText ++ " " ++ l.marker ++ l.mnemonic ++
    l.operandText

end Line

/-- The instruction that starts with the first of `bytes`, located at `addr`. -/
def decode (bytes : List UInt8) (addr : UInt16) : Line :=
  let opcode := bytes.headD 0
  { addr
    bytes := if bytes.isEmpty then [0] else bytes.take (Instruction.ofOpcode opcode).length
    opcode
    low := bytes.getD 1 0
    high := bytes.getD 2 0 }

/-- The lines of a program whose first byte lies at `addr`, after the lines `done`. -/
def sweepAfter (done : Array Line) (bytes : List UInt8) (addr : UInt16) : Array Line :=
  match bytes with
  | [] => done
  | opcode :: rest =>
    let length := (Instruction.ofOpcode opcode).length
    sweepAfter (done.push (decode (opcode :: rest) addr)) ((opcode :: rest).drop length)
      (addr + UInt16.ofNat length)
termination_by bytes.length
decreasing_by
  have : 0 < (Instruction.ofOpcode opcode).length := Mode.length_pos _
  simp only [List.length_drop, List.length_cons]
  omega

/-- The lines of a program whose first byte lies at `origin`. -/
def sweep (bytes : List UInt8) (origin : UInt16) : Array Line := sweepAfter #[] bytes origin

end Nes.Cpu.Disassembly
