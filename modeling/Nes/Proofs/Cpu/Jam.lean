import Nes.Cpu.Machine

/-!
# A stopped processor

`Bus.Shows bus addr v` says that a read at an address answers `v` and changes nothing.  Where the
program counter shows the opcode of a `JAM`, an instruction only stops the processor
(`Machine.step_jam`); a stopped processor reads the byte at its program counter and does nothing
else, however often it is asked to go on (`Machine.step_halted`).  Traced instructions do the same
(`Machine.stepTraced_jam`, `Machine.stepTraced_halted`).
-/

namespace Nes

/-- A read at an address answers this byte, and changes nothing. -/
def Bus.Shows {β : Type} [Bus β] (bus : β) (addr : UInt16) (v : UInt8) : Prop :=
  Bus.read bus addr = (v, bus)

theorem Cpu.Instruction.mode_table : ∀ i ∈ table, i.mnemonic = .jam → i.mode = .implied := by
  decide +kernel

/-- The opcodes that stop the processor are one byte long. -/
theorem Cpu.Instruction.length_of_jam {opcode : UInt8} (hjam : (ofOpcode opcode).mnemonic = .jam) :
    (ofOpcode opcode).length = 1 := by
  rw [length, mode_table (ofOpcode opcode) (Array.getElem_mem _) hjam]
  rfl

namespace Machine

open Cpu

variable {β : Type} [Bus β] {m : Machine β} {opcode : UInt8}

theorem fetch_of_shows (hshows : Bus.Shows m.bus m.cpu.pc opcode) : m.fetch = (opcode, m) := by
  obtain ⟨cpu, bus⟩ := m
  rw [Bus.Shows] at hshows
  rw [fetch, hshows]

theorem execute_jam (m : Machine β) (hjam : (Instruction.ofOpcode opcode).mnemonic = .jam) :
    m.execute opcode =
      (.error ⟨opcode, m.cpu.pc⟩, { m with cpu := { m.cpu with halted := true } }) := by
  simp only [execute, hjam, Mnemonic.action]

theorem step_jam (hshows : Bus.Shows m.bus m.cpu.pc opcode) (hgoes : m.cpu.halted = false)
    (hjam : (Instruction.ofOpcode opcode).mnemonic = .jam) :
    m.step = (.error ⟨opcode, m.cpu.pc⟩, { m with cpu := { m.cpu with halted := true } }) := by
  rw [step, fetch_of_shows hshows]
  simp only [hgoes, Bool.false_eq_true, ↓reduceIte]
  exact m.execute_jam hjam

theorem step_halted (hshows : Bus.Shows m.bus m.cpu.pc opcode) (hhalted : m.cpu.halted = true) :
    m.step = (.error ⟨opcode, m.cpu.pc⟩, m) := by
  rw [step, fetch_of_shows hshows]
  simp only [hhalted, ↓reduceIte]

theorem stepTraced_jam (hshows : Bus.Shows m.bus m.cpu.pc opcode) (hgoes : m.cpu.halted = false)
    (hjam : (Instruction.ofOpcode opcode).mnemonic = .jam) :
    m.stepTraced = ((.error ⟨opcode, m.cpu.pc⟩, some (traceLine m.cpu [opcode])),
      { m with cpu := { m.cpu with halted := true } }) := by
  have hbytes : Bus.readList m.bus m.cpu.pc 1 = ([opcode], m.bus) := by
    rw [Bus.Shows] at hshows
    simp only [Bus.readList, Bus.listBy, hshows]
  rw [stepTraced, fetch_of_shows hshows]
  simp only [hgoes, Bool.false_eq_true, ↓reduceIte, Instruction.length_of_jam hjam, hbytes,
    execute_jam _ hjam]

theorem stepTraced_halted (hshows : Bus.Shows m.bus m.cpu.pc opcode)
    (hhalted : m.cpu.halted = true) :
    m.stepTraced = ((.error ⟨opcode, m.cpu.pc⟩, none), m) := by
  rw [stepTraced, fetch_of_shows hshows]
  simp only [hhalted, ↓reduceIte]

end Machine

end Nes
