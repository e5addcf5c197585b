import Nes.Cpu.Machine

/-!
# The cycles of an instruction

An instruction that is executed takes from two to eight cycles (`Machine.timed_step`), an interrupt
that is entered takes seven (`Machine.interrupt_cases`), and the processor counts the cycles that it
tells.  No operation touches this count or the mark of a stopped processor (`Mnemonic.timeless`), so
that a processor which meets a `JAM` only gets this mark.
-/

namespace Nes.Cpu

/-- The count of cycles and the mark of a stopped processor are the same. -/
def SameTime (c c' : Cpu) : Prop := c'.cycles = c.cycles ∧ c'.halted = c.halted

/-- What an operation computes leaves time alone. -/
def Action.Timeless : Action → Prop
  | .read f | .pull f => ∀ c v, SameTime c (f c v)
  | .writeMasked f => ∀ c, SameTime c (f c).2
  | .modify f => ∀ c v, SameTime c (f c v).2
  | .internal f => ∀ c, SameTime c (f c)
  | _ => True

theorem Mnemonic.timeless (m : Mnemonic) : m.action.Timeless := by
  cases m <;> first
    | exact trivial
    | exact fun _ _ => ⟨rfl, rfl⟩
    | exact fun _ => ⟨rfl, rfl⟩

/-- The greatest number of cycles that a class of operations adds to those of the table. -/
def Action.extra : Action → Nat
  | .branch _ => 2
  | _ => 0

/-- The cycles of an instruction with everything that may be added. -/
def Instruction.maxCycles (i : Instruction) : Nat :=
  i.cycles + (if i.hasPagePenalty then 1 else 0) + i.mnemonic.action.extra

set_option maxRecDepth 4000 in
theorem Instruction.cycles_table :
    ∀ i ∈ table, 2 ≤ i.cycles ∧ i.maxCycles ≤ 8 := by
  decide

theorem Instruction.cycles_ofOpcode (opcode : UInt8) :
    2 ≤ (ofOpcode opcode).cycles ∧ (ofOpcode opcode).maxCycles ≤ 8 :=
  cycles_table _ (Array.getElem_mem _)

end Nes.Cpu

namespace Nes.Machine

open Cpu

variable {β : Type} [Bus β] (m : Machine β)

/-- A masked request leaves everything as it is; otherwise seven cycles are used. -/
theorem interrupt_cases (kind : Interrupt) :
    m.interrupt kind = (0, m) ∨
      (m.interrupt kind).1 = 7 ∧ (m.interrupt kind).2.cpu.cycles = m.cpu.cycles + 7 ∧
        (m.interrupt kind).2.cpu.halted = m.cpu.halted := by
  unfold interrupt
  split
  · exact Or.inl rfl
  · exact Or.inr ⟨rfl, rfl, rfl⟩

theorem sameTime_perform (action : Action) (h : action.Timeless) (mode : Mode) (o : Operand) :
    SameTime m.cpu (m.perform action mode o).2.cpu ∧
      (m.perform action mode o).1 ≤ action.extra := by
  obtain ⟨cpu, bus⟩ := m
  cases action with
  | read f => exact ⟨h _ _, Nat.le_refl 0⟩
  | write value => exact ⟨⟨rfl, rfl⟩, Nat.le_refl 0⟩
  | writeMasked f => exact ⟨h _, Nat.le_refl 0⟩
  | modify f =>
    simp only [perform]
    split
    · exact ⟨h _ _, Nat.le_refl 0⟩
    · exact ⟨h _ _, Nat.le_refl 0⟩
  | internal f => exact ⟨h _, Nat.le_refl 0⟩
  | branch taken =>
    simp only [perform]
    split
    · refine ⟨⟨rfl, rfl⟩, ?_⟩
      change (if pageCrossed cpu.pc o.addr then 2 else 1) ≤ 2
      split <;> decide
    · exact ⟨⟨rfl, rfl⟩, Nat.zero_le _⟩
  | jump => exact ⟨⟨rfl, rfl⟩, Nat.le_refl 0⟩
  | call => exact ⟨⟨rfl, rfl⟩, Nat.le_refl 0⟩
  | returnFromCall => exact ⟨⟨rfl, rfl⟩, Nat.le_refl 0⟩
  | returnFromInterrupt => exact ⟨⟨rfl, rfl⟩, Nat.le_refl 0⟩
  | interrupt => exact ⟨⟨rfl, rfl⟩, Nat.le_refl 0⟩
  | push value => exact ⟨⟨rfl, rfl⟩, Nat.le_refl 0⟩
  | pull f => exact ⟨h _ _, Nat.le_refl 0⟩
  | skip =>
    simp only [perform]
    split <;> exact ⟨⟨rfl, rfl⟩, Nat.le_refl 0⟩
  | jam => exact ⟨⟨rfl, rfl⟩, Nat.le_refl 0⟩

/-- What the result of an instruction says of time: two to eight cycles that the processor has
counted, or a stop without any. -/
def Timed (c : Cpu) (result : Except Jam Nat) (c' : Cpu) : Prop :=
  match result with
  | .ok n => 2 ≤ n ∧ n ≤ 8 ∧ c'.cycles = c.cycles + n ∧ c'.halted = false
  | .error _ => c'.cycles = c.cycles ∧ c'.halted = true

theorem timed_execute (hruns : m.cpu.halted = false) (opcode : UInt8) :
    Timed m.cpu (m.execute opcode).1 (m.execute opcode).2.cpu := by
  obtain ⟨cpu, bus⟩ := m
  obtain ⟨hlow, hhigh⟩ := Instruction.cycles_ofOpcode opcode
  simp only [execute]
  split
  · exact ⟨rfl, rfl⟩
  · generalize Operand.resolve (Instruction.ofOpcode opcode).mode cpu (cpu.pc + 1) bus = r
    obtain ⟨⟨hcycles, hhalted⟩, hextra⟩ :=
      sameTime_perform
        (jump ⟨cpu, r.2⟩ (cpu.pc + UInt16.ofNat (Instruction.ofOpcode opcode).length)) _
        (Mnemonic.timeless (Instruction.ofOpcode opcode).mnemonic)
        (Instruction.ofOpcode opcode).mode r.1
    have hpenalty :
        (if (Instruction.ofOpcode opcode).hasPagePenalty && r.1.crossesPage then 1 else 0) ≤
          if (Instruction.ofOpcode opcode).hasPagePenalty then 1 else 0 := by
      cases (Instruction.ofOpcode opcode).hasPagePenalty <;> cases r.1.crossesPage <;> decide
    simp only [Instruction.maxCycles] at hhigh
    refine ⟨?_, ?_, congrArg (· + _) hcycles, hhalted.trans hruns⟩
    · omega
    · omega

theorem timed_step : Timed m.cpu m.step.1 m.step.2.cpu := by
  simp only [step]
  split
  · next hhalted => exact ⟨rfl, hhalted⟩
  · next hhalted => exact timed_execute m.fetch.2 (Bool.eq_false_iff.2 hhalted) _

theorem timed_stepTraced : Timed m.cpu m.stepTraced.1.1 m.stepTraced.2.cpu := by
  simp only [stepTraced]
  split
  · next hhalted => exact ⟨rfl, hhalted⟩
  · next hhalted =>
    exact timed_execute ⟨m.fetch.2.cpu, (Bus.readList m.fetch.2.bus m.fetch.2.cpu.pc
      (Instruction.ofOpcode m.fetch.1).length).2⟩ (Bool.eq_false_iff.2 hhalted) m.fetch.1

end Nes.Machine
