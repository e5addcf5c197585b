import Nes.Proofs.Cpu.Jam
import Nes.System

/-!
# Addresses that can be read without effect

A read is `Silent` in memory and on the board, where it answers what a peek would
(`System.shows_peek`), and at the registers that can only be written.  At the others it is not: the
status of the picture unit, its data register and its sprite memory, the status of the sound unit,
and the controllers.  An address where nothing answers is silent as long as no notes are taken.
-/

namespace Nes.System

/-- Memory or the board answers at this address. -/
def IsMemory (addr : UInt16) : Prop := addr < 0x2000 ∨ 0x4020 ≤ addr

/-- The registers of the picture unit whose reads have an effect: its status, its sprite memory and
its data. -/
def IsPpuPort (addr : UInt16) : Prop :=
  (addr &&& 7).toNat = 2 ∨ (addr &&& 7).toNat = 4 ∨ (addr &&& 7).toNat = 7

/-- A read at this address changes nothing. -/
def Silent (s : System) (addr : UInt16) : Prop :=
  IsMemory addr ∨ addr < 0x4000 ∧ ¬IsPpuPort addr ∨ 0x4000 ≤ addr ∧ addr < 0x4015 ∨
    0x4018 ≤ addr ∧ s.notices = none

variable (s : System) {addr : UInt16}

/-- The registers end below `$4018`. -/
theorem above_registers (h : 0x4018 ≤ addr) :
    ¬addr < 0x2000 ∧ ¬addr < 0x4000 ∧ ¬addr < 0x4018 ∧
      addr ≠ 0x4015 ∧ addr ≠ 0x4016 ∧ addr ≠ 0x4017 := by
  grind

theorem shows_peek (h : IsMemory addr) : Bus.Shows s addr (s.peek addr) := by
  change s.read addr = (s.peek addr, s)
  unfold read peek
  rcases h with h | h
  · rw [if_pos h, if_pos h]
  · have habove := above_registers (show 0x4018 ≤ addr by grind)
    have hboard : ¬addr < 0x4020 := by grind
    simp only [habove, hboard, ↓reduceIte, beq_iff_eq]

/-- A register that can only be written answers with what was last on the bus. -/
theorem readRegister_of_not_isPpuPort {γ : Type} [PictureBus γ] (p : Ppu) (cart : γ)
    (h : ¬IsPpuPort addr) : p.readRegister cart addr = (p.openBus, p) := by
  simp only [IsPpuPort, not_or] at h
  obtain ⟨h2, h4, h7⟩ := h
  unfold Ppu.readRegister
  generalize (addr &&& 7).toNat = number at h2 h4 h7
  split
  next heq =>
    split at heq
    · exact absurd rfl h2
    · exact absurd rfl h4
    · exact absurd rfl h7
    · cases heq
      rfl

/-- A silent read answers some byte, and changes nothing. -/
theorem Silent.shows {s : System} (h : s.Silent addr) : ∃ v, Bus.Shows s addr v := by
  change ∃ v, s.read addr = (v, s)
  unfold read
  rcases h with h | ⟨hlt, hport⟩ | ⟨hle, hlt⟩ | ⟨hle, hnotes⟩
  · exact ⟨_, s.shows_peek h⟩
  · split
    · exact ⟨_, rfl⟩
    · rw [readRegister_of_not_isPpuPort _ _ hport]
      exact ⟨_, rfl⟩
  · have hnot : ¬addr < 0x2000 ∧ ¬addr < 0x4000 ∧
        addr ≠ 0x4015 ∧ addr ≠ 0x4016 ∧ addr ≠ 0x4017 ∧ addr < 0x4018 := by grind
    simp only [hnot, ↓reduceIte, beq_iff_eq]
    exact ⟨_, rfl⟩
  · have hnote : s.note (.unmappedRead addr) = s := by
      rw [note, hnotes, Option.map_none, ← hnotes]
    simp only [above_registers hle, ↓reduceIte, beq_iff_eq, hnote]
    split
    · exact ⟨_, rfl⟩
    · exact ⟨_, rfl⟩

end Nes.System
