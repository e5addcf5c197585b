/-!
# Instructions

Every opcode byte stands for an `Instruction`: what it does (`Mnemonic`), how it finds its operand
(`Mode`) and how many cycles it takes.  `Instruction.table` holds all 256 of them, the
undocumented ones included; `Instruction.ofOpcode` looks one up.  The length in bytes follows from
the mode alone (`Mode.length`).
-/

namespace Nes.Cpu

/-- The ways in which an instruction names its operand. -/
inductive Mode
  | implied
  | accumulator
  | immediate
  | zeroPage
  | zeroPageX
  | zeroPageY
  | absolute
  | absoluteX
  | absoluteY
  | indirect
  | indirectX
  | indirectY
  | relative
deriving DecidableEq, Repr, Inhabited

namespace Mode

/-- The length in bytes of an instruction with this mode, its opcode included. -/
def length : Mode → Nat
  | implied | accumulator => 1
  | immediate | zeroPage | zeroPageX | zeroPageY | indirectX | indirectY | relative => 2
  | absolute | absoluteX | absoluteY | indirect => 3

/-- The modes that add an index register to a 16-bit base address. -/
def isIndexed : Mode → Bool
  | absoluteX | absoluteY | indirectY => true
  | _ => false

theorem length_pos (m : Mode) : 0 < m.length := by cases m <;> decide

theorem length_le (m : Mode) : m.length ≤ 3 := by cases m <;> decide

end Mode

/-- The operations of the processor.  Undocumented operations have their common names. -/
inductive Mnemonic
  | adc | and | asl | bcc | bcs | beq | bit | bmi | bne | bpl | brk | bvc | bvs | clc
  | cld | cli | clv | cmp | cpx | cpy | dec | dex | dey | eor | inc | inx | iny | jmp
  | jsr | lda | ldx | ldy | lsr | nop | ora | pha | php | pla | plp | rol | ror | rti
  | rts | sbc | sec | sed | sei | sta | stx | sty | tax | tay | tsx | txa | txs | tya
  | alr | anc | arr | axs | dcp | isc | jam | las | lax | lxa | rla | rra | sax | sha
  | shx | shy | slo | sre | tas | xaa
deriving DecidableEq, Repr, Inhabited

namespace Mnemonic

/-- The three letters that listings show. -/
def name : Mnemonic → String
  | adc => "ADC" | and => "AND" | asl => "ASL" | bcc => "BCC" | bcs => "BCS" | beq => "BEQ"
  | bit => "BIT" | bmi => "BMI" | bne => "BNE" | bpl => "BPL" | brk => "BRK" | bvc => "BVC"
  | bvs => "BVS" | clc => "CLC" | cld => "CLD" | cli => "CLI" | clv => "CLV" | cmp => "CMP"
  | cpx => "CPX" | cpy => "CPY" | dec => "DEC" | dex => "DEX" | dey => "DEY" | eor => "EOR"
  | inc => "INC" | inx => "INX" | iny => "INY" | jmp => "JMP" | jsr => "JSR" | lda => "LDA"
  | ldx => "LDX" | ldy => "LDY" | lsr => "LSR" | nop => "NOP" | ora => "ORA" | pha => "PHA"
  | php => "PHP" | pla => "PLA" | plp => "PLP" | rol => "ROL" | ror => "ROR" | rti => "RTI"
  | rts => "RTS" | sbc => "SBC" | sec => "SEC" | sed => "SED" | sei => "SEI" | sta => "STA"
  | stx => "STX" | sty => "STY" | tax => "TAX" | tay => "TAY" | tsx => "TSX" | txa => "TXA"
  | txs => "TXS" | tya => "TYA" | alr => "ALR" | anc => "ANC" | arr => "ARR" | axs => "AXS"
  | dcp => "DCP" | isc => "ISC" | jam => "JAM" | las => "LAS" | lax => "LAX" | lxa => "LXA"
  | rla => "RLA" | rra => "RRA" | sax => "SAX" | sha => "SHA" | shx => "SHX" | shy => "SHY"
  | slo => "SLO" | sre => "SRE" | tas => "TAS" | xaa => "XAA"

/-- The operations that the maker of the processor documents. -/
def isDocumented : Mnemonic → Bool
  | alr | anc | arr | axs | dcp | isc | jam | las | lax | lxa | rla | rra | sax | sha | shx | shy
  | slo | sre | tas | xaa => false
  | _ => true

end Mnemonic

/-- What an opcode byte stands for. -/
structure Instruction where
  /-- What the instruction does. -/
  mnemonic : Mnemonic
  /-- How it finds its operand. -/
  mode : Mode
  /-- The cycles it takes when no page is crossed and no branch is taken. -/
  cycles : Nat
deriving DecidableEq, Repr, Inhabited

namespace Instruction

/-- The instruction of each opcode byte, sixteen to a group. -/
def table : Array Instruction := #[
  -- $00
  ⟨.brk, .implied, 7⟩, ⟨.ora, .indirectX, 6⟩, ⟨.jam, .implied, 2⟩, ⟨.slo, .indirectX, 8⟩,
  ⟨.nop, .zeroPage, 3⟩, ⟨.ora, .zeroPage, 3⟩, ⟨.asl, .zeroPage, 5⟩, ⟨.slo, .zeroPage, 5⟩,
  ⟨.php, .implied, 3⟩, ⟨.ora, .immediate, 2⟩, ⟨.asl, .accumulator, 2⟩, ⟨.anc, .immediate, 2⟩,
  ⟨.nop, .absolute, 4⟩, ⟨.ora, .absolute, 4⟩, ⟨.asl, .absolute, 6⟩, ⟨.slo, .absolute, 6⟩,
  -- $10
  ⟨.bpl, .relative, 2⟩, ⟨.ora, .indirectY, 5⟩, ⟨.jam, .implied, 2⟩, ⟨.slo, .indirectY, 8⟩,
  ⟨.nop, .zeroPageX, 4⟩, ⟨.ora, .zeroPageX, 4⟩, ⟨.asl, .zeroPageX, 6⟩, ⟨.slo, .zeroPageX, 6⟩,
  ⟨.clc, .implied, 2⟩, ⟨.ora, .absoluteY, 4⟩, ⟨.nop, .implied, 2⟩, ⟨.slo, .absoluteY, 7⟩,
  ⟨.nop, .absoluteX, 4⟩, ⟨.ora, .absoluteX, 4⟩, ⟨.asl, .absoluteX, 7⟩, ⟨.slo, .absoluteX, 7⟩,
  -- $20
  ⟨.jsr, .absolute, 6⟩, ⟨.and, .indirectX, 6⟩, ⟨.jam, .implied, 2⟩, ⟨.rla, .indirectX, 8⟩,
  ⟨.bit, .zeroPage, 3⟩, ⟨.and, .zeroPage, 3⟩, ⟨.rol, .zeroPage, 5⟩, ⟨.rla, .zeroPage, 5⟩,
  ⟨.plp, .implied, 4⟩, ⟨.and, .immediate, 2⟩, ⟨.rol, .accumulator, 2⟩, ⟨.anc, .immediate, 2⟩,
  ⟨.bit, .absolute, 4⟩, ⟨.and, .absolute, 4⟩, ⟨.rol, .absolute, 6⟩, ⟨.rla, .absolute, 6⟩,
  -- $30
  ⟨.bmi, .relative, 2⟩, ⟨.and, .indirectY, 5⟩, ⟨.jam, .implied, 2⟩, ⟨.rla, .indirectY, 8⟩,
  ⟨.nop, .zeroPageX, 4⟩, ⟨.and, .zeroPageX, 4⟩, ⟨.rol, .zeroPageX, 6⟩, ⟨.rla, .zeroPageX, 6⟩,
  ⟨.sec, .implied, 2⟩, ⟨.and, .absoluteY, 4⟩, ⟨.nop, .implied, 2⟩, ⟨.rla, .absoluteY, 7⟩,
  ⟨.nop, .absoluteX, 4⟩, ⟨.and, .absoluteX, 4⟩, ⟨.rol, .absoluteX, 7⟩, ⟨.rla, .absoluteX, 7⟩,
  -- $40
  ⟨.rti, .implied, 6⟩, ⟨.eor, .indirectX, 6⟩, ⟨.jam, .implied, 2⟩, ⟨.sre, .indirectX, 8⟩,
  ⟨.nop, .zeroPage, 3⟩, ⟨.eor, .zeroPage, 3⟩, ⟨.lsr, .zeroPage, 5⟩, ⟨.sre, .zeroPage, 5⟩,
  ⟨.pha, .implied, 3⟩, ⟨.eor, .immediate, 2⟩, ⟨.lsr, .accumulator, 2⟩, ⟨.alr, .immediate, 2⟩,
  ⟨.jmp, .absolute, 3⟩, ⟨.eor, .absolute, 4⟩, ⟨.lsr, .absolute, 6⟩, ⟨.sre, .absolute, 6⟩,
  -- $50
  ⟨.bvc, .relative, 2⟩, ⟨.eor, .indirectY, 5⟩, ⟨.jam, .implied, 2⟩, ⟨.sre, .indirectY, 8⟩,
  ⟨.nop, .zeroPageX, 4⟩, ⟨.eor, .zeroPageX, 4⟩, ⟨.lsr, .zeroPageX, 6⟩, ⟨.sre, .zeroPageX, 6⟩,
  ⟨.cli, .implied, 2⟩, ⟨.eor, .absoluteY, 4⟩, ⟨.nop, .implied, 2⟩, ⟨.sre, .absoluteY, 7⟩,
  ⟨.nop, .absoluteX, 4⟩, ⟨.eor, .absoluteX, 4⟩, ⟨.lsr, .absoluteX, 7⟩, ⟨.sre, .absoluteX, 7⟩,
  -- $60
  ⟨.rts, .implied, 6⟩, ⟨.adc, .indirectX, 6⟩, ⟨.jam, .implied, 2⟩, ⟨.rra, .indirectX, 8⟩,
  ⟨.nop, .zeroPage, 3⟩, ⟨.adc, .zeroPage, 3⟩, ⟨.ror, .zeroPage, 5⟩, ⟨.rra, .zeroPage, 5⟩,
  ⟨.pla, .implied, 4⟩, ⟨.adc, .immediate, 2⟩, ⟨.ror, .accumulator, 2⟩, ⟨.arr, .immediate, 2⟩,
  ⟨.jmp, .indirect, 5⟩, ⟨.adc, .absolute, 4⟩, ⟨.ror, .absolute, 6⟩, ⟨.rra, .absolute, 6⟩,
  -- $70
  ⟨.bvs, .relative, 2⟩, ⟨.adc, .indirectY, 5⟩, ⟨.jam, .implied, 2⟩, ⟨.rra, .indirectY, 8⟩,
  ⟨.nop, .zeroPageX, 4⟩, ⟨.adc, .zeroPageX, 4⟩, ⟨.ror, .zeroPageX, 6⟩, ⟨.rra, .zeroPageX, 6⟩,
  ⟨.sei, .implied, 2⟩, ⟨.adc, .absoluteY, 4⟩, ⟨.nop, .implied, 2⟩, ⟨.rra, .absoluteY, 7⟩,
  ⟨.nop, .absoluteX, 4⟩, ⟨.adc, .absoluteX, 4⟩, ⟨.ror, .absoluteX, 7⟩, ⟨.rra, .absoluteX, 7⟩,
  -- $80
  ⟨.nop, .immediate, 2⟩, ⟨.sta, .indirectX, 6⟩, ⟨.nop, .immediate, 2⟩, ⟨.sax, .indirectX, 6⟩,
  ⟨.sty, .zeroPage, 3⟩, ⟨.sta, .zeroPage, 3⟩, ⟨.stx, .zeroPage, 3⟩, ⟨.sax, .zeroPage, 3⟩,
  ⟨.dey, .implied, 2⟩, ⟨.nop, .immediate, 2⟩, ⟨.txa, .implied, 2⟩, ⟨.xaa, .immediate, 2⟩,
  ⟨.sty, .absolute, 4⟩, ⟨.sta, .absolute, 4⟩, ⟨.stx, .absolute, 4⟩, ⟨.sax, .absolute, 4⟩,
  -- $90
  ⟨.bcc, .relative, 2⟩, ⟨.sta, .indirectY, 6⟩, ⟨.jam, .implied, 2⟩, ⟨.sha, .indirectY, 6⟩,
  ⟨.sty, .zeroPageX, 4⟩, ⟨.sta, .zeroPageX, 4⟩, ⟨.stx, .zeroPageY, 4⟩, ⟨.sax, .zeroPageY, 4⟩,
  ⟨.tya, .implied, 2⟩, ⟨.sta, .absoluteY, 5⟩, ⟨.txs, .implied, 2⟩, ⟨.tas, .absoluteY, 5⟩,
  ⟨.shy, .absoluteX, 5⟩, ⟨.sta, .absoluteX, 5⟩, ⟨.shx, .absoluteY, 5⟩, ⟨.sha, .absoluteY, 5⟩,
  -- $A0
  ⟨.ldy, .immediate, 2⟩, ⟨.lda, .indirectX, 6⟩, ⟨.ldx, .immediate, 2⟩, ⟨.lax, .indirectX, 6⟩,
  ⟨.ldy, .zeroPage, 3⟩, ⟨.lda, .zeroPage, 3⟩, ⟨.ldx, .zeroPage, 3⟩, ⟨.lax, .zeroPage, 3⟩,
  ⟨.tay, .implied, 2⟩, ⟨.lda, .immediate, 2⟩, ⟨.tax, .implied, 2⟩, ⟨.lxa, .immediate, 2⟩,
  ⟨.ldy, .absolute, 4⟩, ⟨.lda, .absolute, 4⟩, ⟨.ldx, .absolute, 4⟩, ⟨.lax, .absolute, 4⟩,
  -- $B0
  ⟨.bcs, .relative, 2⟩, ⟨.lda, .indirectY, 5⟩, ⟨.jam, .implied, 2⟩, ⟨.lax, .indirectY, 5⟩,
  ⟨.ldy, .zeroPageX, 4⟩, ⟨.lda, .zeroPageX, 4⟩, ⟨.ldx, .zeroPageY, 4⟩, ⟨.lax, .zeroPageY, 4⟩,
  ⟨.clv, .implied, 2⟩, ⟨.lda, .absoluteY, 4⟩, ⟨.tsx, .implied, 2⟩, ⟨.las, .absoluteY, 4⟩,
  ⟨.ldy, .absoluteX, 4⟩, ⟨.lda, .absoluteX, 4⟩, ⟨.ldx, .absoluteY, 4⟩, ⟨.lax, .absoluteY, 4⟩,
  -- $C0
  ⟨.cpy, .immediate, 2⟩, ⟨.cmp, .indirectX, 6⟩, ⟨.nop, .immediate, 2⟩, ⟨.dcp, .indirectX, 8⟩,
  ⟨.cpy, .zeroPage, 3⟩, ⟨.cmp, .zeroPage, 3⟩, ⟨.dec, .zeroPage, 5⟩, ⟨.dcp, .zeroPage, 5⟩,
  ⟨.iny, .implied, 2⟩, ⟨.cmp, .immediate, 2⟩, ⟨.dex, .implied, 2⟩, ⟨.axs, .immediate, 2⟩,
  ⟨.cpy, .absolute, 4⟩, ⟨.cmp, .absolute, 4⟩, ⟨.dec, .absolute, 6⟩, ⟨.dcp, .absolute, 6⟩,
  -- $D0
  ⟨.bne, .relative, 2⟩, ⟨.cmp, .indirectY, 5⟩, ⟨.jam, .implied, 2⟩, ⟨.dcp, .indirectY, 8⟩,
  ⟨.nop, .zeroPageX, 4⟩, ⟨.cmp, .zeroPageX, 4⟩, ⟨.dec, .zeroPageX, 6⟩, ⟨.dcp, .zeroPageX, 6⟩,
  ⟨.cld, .implied, 2⟩, ⟨.cmp, .absoluteY, 4⟩, ⟨.nop, .implied, 2⟩, ⟨.dcp, .absoluteY, 7⟩,
  ⟨.nop, .absoluteX, 4⟩, ⟨.cmp, .absoluteX, 4⟩, ⟨.dec, .absoluteX, 7⟩, ⟨.dcp, .absoluteX, 7⟩,
  -- $E0
  ⟨.cpx, .immediate, 2⟩, ⟨.sbc, .indirectX, 6⟩, ⟨.nop, .immediate, 2⟩, ⟨.isc, .indirectX, 8⟩,
  ⟨.cpx, .zeroPage, 3⟩, ⟨.sbc, .zeroPage, 3⟩, ⟨.inc, .zeroPage, 5⟩, ⟨.isc, .zeroPage, 5⟩,
  ⟨.inx, .implied, 2⟩, ⟨.sbc, .immediate, 2⟩, ⟨.nop, .implied, 2⟩, ⟨.sbc, .immediate, 2⟩,
  ⟨.cpx, .absolute, 4⟩, ⟨.sbc, .absolute, 4⟩, ⟨.inc, .absolute, 6⟩, ⟨.isc, .absolute, 6⟩,
  -- $F0
  ⟨.beq, .relative, 2⟩, ⟨.sbc, .indirectY, 5⟩, ⟨.jam, .implied, 2⟩, ⟨.isc, .indirectY, 8⟩,
  ⟨.nop, .zeroPageX, 4⟩, ⟨.sbc, .zeroPageX, 4⟩, ⟨.inc, .zeroPageX, 6⟩, ⟨.isc, .zeroPageX, 6⟩,
  ⟨.sed, .implied, 2⟩, ⟨.sbc, .absoluteY, 4⟩, ⟨.nop, .implied, 2⟩, ⟨.isc, .absoluteY, 7⟩,
  ⟨.nop, .absoluteX, 4⟩, ⟨.sbc, .absoluteX, 4⟩, ⟨.inc, .absoluteX, 7⟩, ⟨.isc, .absoluteX, 7⟩
]

set_option maxRecDepth 2000 in
theorem size_table : table.size = 256 := rfl

/-- The instruction that an opcode byte stands for. -/
def ofOpcode (opcode : UInt8) : Instruction :=
  have : opcode.toNat < table.size := size_table ▸ opcode.toNat_lt
  table[opcode.toNat]

/-- The length in bytes, the opcode included. -/
def length (i : Instruction) : Nat := i.mode.length

/-- Whether the opcode belongs to the documented instruction set: its operation does, and it is
neither a `NOP` other than `$EA` nor the second immediate `SBC`, `$EB`. -/
def isDocumented (opcode : UInt8) : Bool :=
  let i := ofOpcode opcode
  i.mnemonic.isDocumented && (i.mnemonic != .nop || opcode == 0xEA) && opcode != 0xEB

end Instruction

end Nes.Cpu
