import Mathlib.Data.Nat.Bitwise
import Nes.Proofs.Cpu.Combined
import Nes.Proofs.Cpu.Traffic

/-!
# Listings and execution

A listing and the processor take the same bytes apart, each in its own way.  `Machine.Foretold` puts
down where the two meet: the length of a line is the way to the next instruction, the address that a
branch, a `JMP` or a `JSR` shows is where it goes, and the number that any other operand shows is
the byte or the word that is read after the opcode.  This holds of every instruction, wherever it is
(`Machine.line_foretells`).

Numbers are read off a line as a reader would, from the digits after the dollar sign
(`Hexadecimal.shown?`).
-/

namespace Nes

/-! ### Numbers in a text -/

namespace Hexadecimal

theorem digitValue?_digit (n : Nat) : digitValue? (digit n) = some (n % 16) := by
  have hsmall : ∀ d < 16, digitValue? (digit d) = some d := by decide
  have hdigit : digit n = digit (n % 16) := by rw [digit, digit, Nat.mod_mod]
  rw [hdigit, hsmall _ (Nat.mod_lt _ (by decide))]

theorem isSome_digitValue? {width n : Nat} {c : Char} (hc : c ∈ digits width n) :
    (digitValue? c).isSome = true := by
  induction width generalizing n with
  | zero => exact nomatch hc
  | succ width ih =>
    rw [digits, List.mem_append, List.mem_singleton] at hc
    rcases hc with hc | rfl
    · exact ih hc
    · rw [digitValue?_digit]
      rfl

theorem value?_append (cs : List Char) (c : Char) :
    value? (cs ++ [c]) = (value? cs).bind fun n => (digitValue? c).map (16 * n + ·) := by
  simp [value?, List.foldlM_append]

/-- A numeral is read back, as far as its digits go. -/
theorem value?_digits (width n : Nat) : value? (digits width n) = some (n % 16 ^ width) := by
  induction width generalizing n with
  | zero => rw [Nat.pow_zero, Nat.mod_one]; rfl
  | succ width ih =>
    have hlast : 16 * (n / 16 % 16 ^ width) + n % 16 = n % 16 ^ (width + 1) := by
      rw [Nat.pow_succ', Nat.mod_mul, Nat.add_comm]
    rw [digits, value?_append, ih, digitValue?_digit, Option.bind_some, Option.map_some, hlast]

/-- The number that a text shows: that of the digits after the first dollar sign. -/
def shown? (text : List Char) : Option Nat :=
  match text.dropWhile (· != '$') with
  | [] => none
  | _ :: rest => value? (rest.takeWhile fun c => (digitValue? c).isSome)

theorem shown?_digits (before after : List Char) (width n : Nat) (hbefore : '$' ∉ before)
    (hafter : after.takeWhile (fun c => (digitValue? c).isSome) = []) :
    shown? (before ++ '$' :: (digits width n ++ after)) = some (n % 16 ^ width) := by
  have hdrop : (before ++ '$' :: (digits width n ++ after)).dropWhile (· != '$') =
      '$' :: (digits width n ++ after) := by
    rw [List.dropWhile_append_of_pos]
    · rfl
    · intro c hc
      simpa using ne_of_mem_of_not_mem hc hbefore
  have htake : (digits width n ++ after).takeWhile (fun c => (digitValue? c).isSome) =
      digits width n := by
    rw [List.takeWhile_append_of_pos fun c hc => isSome_digitValue? hc, hafter, List.append_nil]
  rw [shown?, hdrop]
  simp only [htake, value?_digits]

end Hexadecimal

namespace Cpu

/-! ### Numbers in a line -/

namespace Disassembly.Line

open Hexadecimal (shown? shown?_digits)

variable {l : Line}

/-- The number that the operand shows. -/
def number? (l : Line) : Option Nat := shown? l.operand.toList

theorem number?_byte (hlength : l.instruction.length = 2) (hmode : l.instruction.mode ≠ .relative) :
    l.number? = some l.low.toNat := by
  have hlow : l.low.toNat % 16 ^ 2 = l.low.toNat := Nat.mod_eq_of_lt l.low.toNat_lt
  have hshown := fun before after => shown?_digits before after 2 l.low.toNat
  rw [Instruction.length] at hlength
  rw [← hlow, number?, operand]
  cases h : l.instruction.mode with
  | implied | accumulator | absolute | absoluteX | absoluteY | indirect =>
    rw [h] at hlength
    cases hlength
  | relative => exact absurd h hmode
  | immediate => simpa [Hexadecimal.byte] using hshown ['#'] [] (by decide) rfl
  | zeroPage => simpa [Hexadecimal.byte] using hshown [] [] (by decide) rfl
  | zeroPageX => simpa [Hexadecimal.byte] using hshown [] [',', 'X'] (by decide) rfl
  | zeroPageY => simpa [Hexadecimal.byte] using hshown [] [',', 'Y'] (by decide) rfl
  | indirectX => simpa [Hexadecimal.byte] using hshown ['('] [',', 'X', ')'] (by decide) rfl
  | indirectY => simpa [Hexadecimal.byte] using hshown ['('] [')', ',', 'Y'] (by decide) rfl

theorem number?_word (hlength : l.instruction.length = 3) :
    l.number? = some (wordOf l.low l.high).toNat := by
  have hword : (wordOf l.low l.high).toNat % 16 ^ 4 = (wordOf l.low l.high).toNat :=
    Nat.mod_eq_of_lt (wordOf l.low l.high).toNat_lt
  have hshown := fun before after => shown?_digits before after 4 (wordOf l.low l.high).toNat
  rw [Instruction.length] at hlength
  rw [← hword, number?, operand]
  cases h : l.instruction.mode with
  | implied | accumulator | immediate | zeroPage | zeroPageX | zeroPageY | indirectX | indirectY
  | relative =>
    rw [h] at hlength
    cases hlength
  | absolute => simpa [Hexadecimal.word] using hshown [] [] (by decide) rfl
  | absoluteX => simpa [Hexadecimal.word] using hshown [] [',', 'X'] (by decide) rfl
  | absoluteY => simpa [Hexadecimal.word] using hshown [] [',', 'Y'] (by decide) rfl
  | indirect => simpa [Hexadecimal.word] using hshown ['('] [')'] (by decide) rfl

theorem number?_relative (hmode : l.instruction.mode = .relative) :
    l.number? = some l.branchTarget.toNat := by
  have htarget : l.branchTarget.toNat % 16 ^ 4 = l.branchTarget.toNat :=
    Nat.mod_eq_of_lt l.branchTarget.toNat_lt
  rw [← htarget, number?, operand, hmode]
  simpa [Hexadecimal.word] using shown?_digits [] [] 4 l.branchTarget.toNat (by decide) rfl

end Disassembly.Line

/-! ### The place of the next instruction -/

/-- The operations that choose the next instruction themselves. -/
def Mnemonic.flows : Mnemonic → Bool
  | jmp | jsr | rts | rti | brk => true
  | bcc | bcs | bne | beq | bpl | bmi | bvc | bvs => true
  | _ => false

/-- What an operation of this class computes leaves the program counter alone, and it goes nowhere
itself. -/
def Action.Stays : Action → Prop
  | read f | pull f => ∀ c v, (f c v).pc = c.pc
  | writeMasked f => ∀ c, (f c).2.pc = c.pc
  | modify f => ∀ c v, (f c v).2.pc = c.pc
  | internal f => ∀ c, (f c).pc = c.pc
  | write _ | push _ | skip | jam => True
  | branch _ | jump | call | returnFromCall | returnFromInterrupt | interrupt => False

theorem Mnemonic.stays {op : Mnemonic} (h : op.flows = false) : op.action.Stays := by
  cases op <;> first
    | exact trivial
    | exact fun _ _ => rfl
    | exact fun _ => rfl
    | cases h

/-- The operations that go to the operand's address if the flags say so. -/
def Action.isBranch : Action → Bool
  | branch _ => true
  | _ => false

/-- Branches, and no other instructions, have relative operands, and they take two cycles to begin
with; what has an immediate operand reads it. -/
theorem Instruction.listing_table : ∀ i ∈ table,
    (i.mode = .relative → i.mnemonic.action.isBranch = true ∧ i.cycles = 2) ∧
    (i.mode = .immediate → i.mnemonic.action.readsOperand = true) := by
  decide +kernel

theorem Action.traffic_of_readsOperand {action : Action} (h : action.readsOperand = true) (c : Cpu)
    {mode : Mode} (hmode : mode ≠ .implied) : action.traffic c mode = .load := by
  cases action with
  | read f => rfl
  | skip => exact if_neg hmode
  | _ => cases h

namespace Instruction

variable {i : Instruction}

/-- The byte of an operand is read first: by the mode or, where it is immediate, by the
operation. -/
theorem plan_byte (c : Cpu) (hi : i ∈ table) (hlength : i.length = 2) :
    ∃ next, i.plan c = .read (c.pc + 1) next := by
  rw [length] at hlength
  rw [plan]
  cases hmode : i.mode with
  | implied | accumulator | absolute | absoluteX | absoluteY | indirect =>
    rw [hmode] at hlength
    cases hlength
  | immediate =>
    have hload : i.traffic c = .load := by
      rw [← traffic_action c c.pc]
      exact Action.traffic_of_readsOperand ((listing_table i hi).2 hmode) _ (by rw [hmode]; decide)
    rw [hload]
    exact ⟨_, rfl⟩
  | zeroPage | zeroPageX | zeroPageY | indirectX | indirectY | relative => exact ⟨_, rfl⟩

/-- The bytes of a longer operand are read in their order. -/
theorem plan_word (c : Cpu) (hlength : i.length = 3) :
    ∃ next : UInt8 → UInt8 → Plan,
      i.plan c = .read (c.pc + 1) fun low => .read (c.pc + 2) (next low) := by
  rw [length] at hlength
  rw [plan]
  cases hmode : i.mode with
  | absolute | absoluteX | absoluteY | indirect => exact ⟨_, rfl⟩
  | _ =>
    rw [hmode] at hlength
    cases hlength

end Instruction

/-- Branch offsets are signed bytes. -/
theorem Operand.branchTarget_eq (base : UInt16) (offset : UInt8) :
    branchTarget base offset = base + offset.toInt8.toInt16.toUInt16 := by
  have hoffset : ∀ offset : Fin 256, (UInt8.ofFin offset).toUInt16 +
      (if UInt8.ofFin offset ≥ 0x80 then 0xFF00 else 0) =
        (UInt8.ofFin offset).toInt8.toInt16.toUInt16 := by
    decide +kernel
  rw [branchTarget, UInt16.add_assoc]
  exact congrArg (base + ·) (hoffset offset.toFin)

/-- Pages are told apart by the high bytes of their addresses. -/
theorem pageCrossed_iff (a b : UInt16) : pageCrossed a b = true ↔ highByte a ≠ highByte b := by
  have hpages : ((a ^^^ b) &&& 0xFF00).toNat = (a.toNat / 256 ^^^ b.toNat / 256) * 256 := by
    have hlt := (a ^^^ b).toNat_lt
    have hxor : (a ^^^ b).toNat / 256 = a.toNat / 256 ^^^ b.toNat / 256 := by
      rw [UInt16.toNat_xor]
      exact @Nat.xor_div_two_pow a.toNat b.toNat 8
    rw [UInt16.toNat_and]
    change (a ^^^ b).toNat &&& 0xFF00 = _
    rw [and_0xFF00, ← hxor]
    omega
  have hsame : (a ^^^ b) &&& 0xFF00 = 0 ↔ highByte a = highByte b := by
    rw [← UInt16.toNat_inj, ← UInt8.toNat_inj, hpages, toNat_highByte, toNat_highByte]
    change (a.toNat / 256 ^^^ b.toNat / 256) * 256 = 0 ↔ _
    rw [Nat.mul_eq_zero, or_iff_left (by decide), Nat.xor_eq_zero_iff]
  rw [pageCrossed, bne_iff_ne]
  exact not_congr hsame

end Cpu

namespace Machine

open Cpu Disassembly

variable {m : Machine Memory}

theorem pc_perform (m : Machine Memory) {action : Action} (h : action.Stays) (mode : Mode)
    (o : Operand) : (m.perform action mode o).2.cpu.pc = m.cpu.pc := by
  obtain ⟨cpu, memory⟩ := m
  cases action with
  | read f => exact h _ _
  | write value => rfl
  | writeMasked f => exact h _
  | modify f =>
    simp only [perform]
    split
    · exact h _ _
    · exact h _ _
  | internal f => exact h _
  | push value => rfl
  | pull f => exact h _ _
  | skip =>
    simp only [perform]
    split <;> rfl
  | jam => rfl
  | branch _ | jump | call | returnFromCall | returnFromInterrupt | interrupt => exact h.elim

/-- The operand of the next instruction. -/
def operand (m : Machine Memory) : Operand :=
  (Operand.resolve m.next.mode m.cpu (m.cpu.pc + 1) m.bus).1

/-- What the operation of the next instruction does, with the operand found and the program counter
after the bytes of the instruction. -/
def worked (m : Machine Memory) : Nat × Machine Memory :=
  (m.jump (m.cpu.pc + UInt16.ofNat m.next.length)).perform m.next.mnemonic.action m.next.mode
    m.operand

theorem step_worked (hgoes : m.cpu.halted = false) (hjam : m.next.mnemonic ≠ .jam) :
    m.step.1 = .ok (m.next.cycles +
        (if m.next.hasPagePenalty && m.operand.crossesPage then 1 else 0) + m.worked.1) ∧
      m.step.2.cpu.pc = m.worked.2.cpu.pc := by
  obtain ⟨cpu, memory⟩ := m
  rw [step_of_running hgoes]
  simp only [execute]
  split
  · next haction => exact absurd (Mnemonic.eq_jam_of_action haction) hjam
  · rw [resolve_memory]
    exact ⟨rfl, rfl⟩

/-- The line that a listing shows at the program counter, where it sees three bytes. -/
def line (m : Machine Memory) : Line :=
  decode [m.bus.get m.cpu.pc, m.bus.get (m.cpu.pc + 1), m.bus.get (m.cpu.pc + 2)] m.cpu.pc

theorem length_line (m : Machine Memory) : m.line.bytes.length = m.next.length := by
  have hle : m.next.length ≤ 3 := Mode.length_le _
  change (List.take m.next.length _).length = _
  rw [List.length_take]
  exact Nat.min_eq_left hle

/-- What a line says of an instruction comes true when that is executed. -/
structure Foretold (m : Machine Memory) (l : Line) : Prop where
  /-- Unless the instruction chooses the next one itself, that follows after the bytes listed. -/
  follows : m.next.mnemonic.flows = false →
    m.step.2.cpu.pc = m.cpu.pc + UInt16.ofNat l.bytes.length
  /-- A branch goes to the address shown, which is a signed byte away, or does not. -/
  branches : m.next.mode = .relative → ∃ taken target,
    m.next.mnemonic.action = .branch taken ∧
    target = m.cpu.pc + 2 + (m.bus.get (m.cpu.pc + 1)).toInt8.toInt16.toUInt16 ∧
    l.number? = some target.toNat ∧
    m.step.2.cpu.pc = (if taken m.cpu.status then target else m.cpu.pc + 2) ∧
    m.step.1 = .ok
      (if taken m.cpu.status then
        if highByte target = highByte (m.cpu.pc + 2) then 3 else 4
      else 2)
  /-- A direct jump or a call goes to the address shown. -/
  jumps : m.next.mnemonic = .jmp ∧ m.next.mode = .absolute ∨ m.next.mnemonic = .jsr →
    l.number? = some m.step.2.cpu.pc.toNat
  /-- Any other operand of one byte is shown as that byte, which is read after the opcode. -/
  byte : m.next.length = 2 → m.next.mode ≠ .relative → ∃ opcode low rest,
    m.stepAccesses = .read m.cpu.pc opcode :: .read (m.cpu.pc + 1) low :: rest ∧
    l.number? = some low.toNat
  /-- An operand of two bytes is shown as the word that they make, and they are read after the
  opcode, the low one first. -/
  word : m.next.length = 3 → ∃ opcode low high rest,
    m.stepAccesses = .read m.cpu.pc opcode :: .read (m.cpu.pc + 1) low ::
      .read (m.cpu.pc + 2) high :: rest ∧
    l.number? = some (low.toNat + 256 * high.toNat)

theorem isOk_step (m : Machine Memory) :
    m.step.1.isOk = true ↔ m.cpu.halted = false ∧ m.next.mnemonic ≠ .jam := by
  cases hhalted : m.cpu.halted with
  | true =>
    rw [step_halted m.shows_next hhalted]
    exact ⟨nofun, fun h => nomatch h.1⟩
  | false =>
    by_cases hjam : m.next.mnemonic = .jam
    · rw [step_jam m.shows_next hhalted hjam]
      exact ⟨nofun, fun h => absurd hjam h.2⟩
    · rw [(step_worked hhalted hjam).1]
      exact ⟨fun _ => ⟨rfl, hjam⟩, fun _ => rfl⟩

theorem pc_step (hok : m.step.1.isOk = true) (hflows : m.next.mnemonic.flows = false) :
    m.step.2.cpu.pc = m.cpu.pc + UInt16.ofNat m.next.length := by
  obtain ⟨hgoes, hjam⟩ := m.isOk_step.1 hok
  rw [(step_worked hgoes hjam).2]
  exact pc_perform _ (Mnemonic.stays hflows) _ _

theorem worked_branch {taken : Status → Bool} (hmode : m.next.mode = .relative)
    (haction : m.next.mnemonic.action = .branch taken) :
    m.worked =
      if taken m.cpu.status then
        (if pageCrossed (m.cpu.pc + 2) m.line.branchTarget then 2 else 1,
          m.jump m.line.branchTarget)
      else (0, m.jump (m.cpu.pc + 2)) := by
  have hnext : m.cpu.pc + UInt16.ofNat m.next.length = m.cpu.pc + 2 := by
    rw [Instruction.length, hmode]
    rfl
  have hoperand : m.operand.addr = m.line.branchTarget := by
    rw [operand, hmode]
    exact congrArg (Operand.branchTarget · _) (UInt16.add_assoc _ _ _)
  rw [worked, haction, hnext, ← hoperand]
  rfl

theorem step_relative (hok : m.step.1.isOk = true) (hmode : m.next.mode = .relative) :
    ∃ taken, m.next.mnemonic.action = .branch taken ∧
      m.step.2.cpu.pc = (if taken m.cpu.status then m.line.branchTarget else m.cpu.pc + 2) ∧
      m.step.1 = .ok
        (if taken m.cpu.status then
          if highByte m.line.branchTarget = highByte (m.cpu.pc + 2) then 3 else 4
        else 2) := by
  obtain ⟨hgoes, hjam⟩ := m.isOk_step.1 hok
  obtain ⟨hresult, hpc⟩ := step_worked hgoes hjam
  obtain ⟨hbranch, hcycles⟩ :=
    (Instruction.listing_table m.next (Array.getElem_mem _)).1 hmode
  have hpenalty : m.next.hasPagePenalty = false := by
    rw [Instruction.hasPagePenalty, hmode]
    rfl
  cases haction : m.next.mnemonic.action with
  | branch taken =>
    have hworked := worked_branch hmode haction
    refine ⟨taken, rfl, ?_, ?_⟩
    · rw [hpc, hworked]
      split <;> rfl
    · rw [hresult, hworked, hcycles, hpenalty]
      simp only [Bool.false_and, Bool.false_eq_true, ↓reduceIte, pageCrossed_iff, ne_eq, ite_not,
        eq_comm (a := highByte (m.cpu.pc + 2))]
      split
      · split <;> rfl
      · rfl
  | _ =>
    rw [haction] at hbranch
    cases hbranch

theorem line_jumps (hok : m.step.1.isOk = true)
    (hjump : m.next.mnemonic = .jmp ∧ m.next.mode = .absolute ∨ m.next.mnemonic = .jsr) :
    m.line.number? = some m.step.2.cpu.pc.toNat := by
  obtain ⟨hgoes, hjam⟩ := m.isOk_step.1 hok
  have hmode : m.next.mode = .absolute := by
    rcases hjump with ⟨-, hmode⟩ | hjsr
    · exact hmode
    · rw [next_form.1 hjsr]
  have hoperand : m.operand.addr = wordOf m.line.low m.line.high := by
    rw [operand, hmode]
    exact congrArg (wordOf _ <| m.bus.get ·) (UInt16.add_assoc _ _ _)
  have hworked : m.worked.2.cpu.pc = m.operand.addr := by
    rw [worked]
    rcases hjump with ⟨hop, -⟩ | hop <;> rw [hop] <;> rfl
  rw [(step_worked hgoes hjam).2, hworked, hoperand]
  exact Line.number?_word (congrArg Mode.length hmode)

theorem stepAccesses_byte (hgoes : m.cpu.halted = false) (hlength : m.next.length = 2) :
    ∃ rest, m.stepAccesses =
      .read m.cpu.pc (m.bus.get m.cpu.pc) :: .read (m.cpu.pc + 1) m.line.low :: rest := by
  obtain ⟨next, hplan⟩ := Instruction.plan_byte m.cpu (i := m.next) (Array.getElem_mem _) hlength
  obtain ⟨rest, haccesses, hcarried⟩ := (m.carried_step hgoes).of_read
  have hread : (Plan.read (m.cpu.pc + 1) next).Carried m.bus rest m.step.2.bus := hplan ▸ hcarried
  obtain ⟨rest', rfl, -⟩ := hread.of_read
  exact ⟨rest', haccesses⟩

theorem stepAccesses_word (hgoes : m.cpu.halted = false) (hlength : m.next.length = 3) :
    ∃ rest, m.stepAccesses =
      .read m.cpu.pc (m.bus.get m.cpu.pc) :: .read (m.cpu.pc + 1) m.line.low ::
        .read (m.cpu.pc + 2) m.line.high :: rest := by
  obtain ⟨next, hplan⟩ := Instruction.plan_word m.cpu hlength
  obtain ⟨rest, haccesses, hcarried⟩ := (m.carried_step hgoes).of_read
  have hread : (Plan.read (m.cpu.pc + 1) fun low => .read (m.cpu.pc + 2) (next low)).Carried m.bus
      rest m.step.2.bus := hplan ▸ hcarried
  obtain ⟨rest', rfl, hread'⟩ := hread.of_read
  obtain ⟨rest'', rfl, -⟩ := hread'.of_read
  exact ⟨rest'', haccesses⟩

/-- **Listings say what the processor does.**  An instruction succeeds if the processor has not been
stopped and it is no `JAM`, and then all comes true that its line says: how long it is, where it
leads, and what its operand is. -/
theorem line_foretells (m : Machine Memory) :
    (m.step.1.isOk = true ↔ m.cpu.halted = false ∧ m.next.mnemonic ≠ .jam) ∧
    (m.step.1.isOk = true → m.Foretold m.line) := by
  refine ⟨m.isOk_step, fun hok => ?_⟩
  obtain ⟨hgoes, -⟩ := m.isOk_step.1 hok
  constructor
  case follows =>
    intro hflows
    rw [length_line]
    exact pc_step hok hflows
  case branches =>
    intro hmode
    obtain ⟨taken, haction, hpc, hresult⟩ := step_relative hok hmode
    exact ⟨taken, m.line.branchTarget, haction, Operand.branchTarget_eq _ _,
      Line.number?_relative hmode, hpc, hresult⟩
  case jumps => exact line_jumps hok
  case byte =>
    intro hlength hmode
    obtain ⟨rest, haccesses⟩ := stepAccesses_byte hgoes hlength
    exact ⟨_, _, rest, haccesses, Line.number?_byte hlength hmode⟩
  case word =>
    intro hlength
    obtain ⟨rest, haccesses⟩ := stepAccesses_word hgoes hlength
    refine ⟨_, _, _, rest, haccesses, ?_⟩
    rw [Line.number?_word (l := m.line) hlength, toNat_wordOf, Nat.add_comm, Nat.mul_comm]

/-- A `BNE` that leaves its page. -/
theorem line_foretells_bne :
    let m : Machine Memory := ⟨{ pc := 0xF0 }, Memory.zero.setList 0xF0 [0xD0, 0x20]⟩
    m.line.operand = "$0112" ∧ m.step.2.cpu.pc = 0x0112 ∧ m.step.1 = .ok 4 := by
  intro m
  have hnumber : m.line.number? = some 0x0112 := by decide
  obtain ⟨taken, target, haction, -, hshown, hpc, hresult⟩ :=
    ((line_foretells m).2 (by decide)).branches (by decide)
  have htaken : taken m.cpu.status = true := by
    cases haction
    rfl
  have htarget : target = 0x0112 :=
    UInt16.toNat_inj.1 (Option.some.inj (hshown.symm.trans hnumber))
  have hpage : highByte 0x0112 ≠ highByte (m.cpu.pc + 2) := by decide
  rw [htaken, htarget] at hpc hresult
  rw [if_pos rfl, if_neg hpage] at hresult
  exact ⟨by decide, hpc, hresult⟩

end Machine

end Nes
