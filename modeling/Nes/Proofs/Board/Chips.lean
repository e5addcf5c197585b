import Nes.Proofs.Board.History

/-!
# The chip of a board goes its own way

An operation on a board changes its chip, its work memory and its patterns (`Op.act_eq`).  What
happens to the chip does not depend on the memory beside it: every operation on the board is an
operation on the chip (`Op.onChip`, `Op.chip_act`), so that what all of these keep holds of the chip
after every history (`chip_preserves`).  A chip remains of its kind and keeps its wiring
(`Chip.SameKind`, `sameKind_run`), and the program is never written (`prgRom_run`).
-/

namespace Nes.Board

theorem high_iff {addr : UInt16} : addr ≥ 0x8000 ↔ 0x8000 ≤ addr.toNat := UInt16.le_iff_toNat_le

theorem even_iff (addr : UInt16) : (addr &&& 1 == 0) = decide (addr.toNat % 2 = 0) := by
  have hbit : (addr &&& 1).toNat = addr.toNat % 2 := by
    rw [UInt16.toNat_and]
    exact Nat.and_one_is_mod _
  rw [Bool.eq_iff_iff, beq_iff_eq, ← UInt16.toNat_inj, hbit, decide_eq_true_iff]
  rfl

theorem exists_board {cart : Cartridge} {c : Chip} (h : chipFor cart = some c) :
    ∃ b, ofCartridge cart = some b ∧ b.chip = c ∧ b.prgRom = cart.prgRom :=
  ⟨_, congrArg _ h, rfl, rfl⟩

/-! ### What an operation does to a board -/

namespace Op

/-- What an operation on a board does to its chip. -/
def onChip : Op → Chip → Chip
  | prgWrite addr v => fun c => if addr ≥ 0x8000 then c.write addr v else c
  | chrWrite .. => id
  | clockLine => Chip.clockLine
  | clockCycle => Chip.clockCycle
  | reset => Chip.reset

/-- What an operation leaves in work memory. -/
def onRam (b : Board) : Op → Vector UInt8 0x2000
  | prgWrite addr v =>
    if 0x6000 ≤ addr.toNat ∧ addr.toNat < 0x8000 ∧ b.chip.ramWritable = true then
      b.prgRam.setIfInBounds (ramIndex addr) v
    else b.prgRam
  | chrWrite .. | clockLine | clockCycle | reset => b.prgRam

/-- What an operation leaves in the patterns. -/
def onPatterns (b : Board) : Op → Array UInt8
  | chrWrite addr v =>
    if b.chrWritable = true then b.chr.setIfInBounds (b.chrIndex addr) v else b.chr
  | prgWrite .. | clockLine | clockCycle | reset => b.chr

theorem setIfInBounds_ram (ram : Vector UInt8 0x2000) (i : Fin 0x2000) (v : UInt8) :
    ram.setIfInBounds i v = ram.set i v i.isLt := by
  ext j hj
  rw [Vector.getElem_setIfInBounds, Vector.getElem_set]

/-- An operation changes the chip, work memory and the patterns, and nothing else. -/
theorem act_eq (o : Op) (b : Board) :
    o.act b = { b with chip := o.onChip b.chip, prgRam := o.onRam b, chr := o.onPatterns b } := by
  cases o with
  | prgWrite addr v =>
    have hhigh : addr ≥ 0x8000 ↔ ¬addr.toNat < 0x8000 := high_iff.trans Nat.not_lt.symm
    have hlow : (addr ≥ 0x6000) = (0x6000 ≤ addr.toNat) := propext UInt16.le_iff_toNat_le
    simp only [act, onChip, onRam, onPatterns, Board.prgWrite, setIfInBounds_ram, hhigh, hlow,
      Bool.and_eq_true, decide_eq_true_eq]
    by_cases h : addr.toNat < 0x8000
    · simp only [h, not_true_eq_false, ↓reduceIte, true_and]
      split <;> rfl
    · simp only [h, not_false_eq_true, ↓reduceIte, false_and, and_false]
  | chrWrite addr v =>
    simp only [act, onChip, onRam, onPatterns, Board.chrWrite]
    split <;> rfl
  | clockLine =>
    obtain ⟨prgRom, chr, chrIsRam, prgRam, wired, chip⟩ := b
    cases chip <;> rfl
  | clockCycle =>
    obtain ⟨prgRom, chr, chrIsRam, prgRam, wired, chip⟩ := b
    cases chip <;> rfl
  | reset => rfl

theorem chip_act (o : Op) (b : Board) : (o.act b).chip = o.onChip b.chip :=
  congrArg Board.chip (o.act_eq b)

end Op

theorem run_concat (b : Board) (ops : List Op) (o : Op) :
    b.run (ops ++ [o]) =
      { b.run ops with
        chip := o.onChip (b.run ops).chip
        prgRam := o.onRam (b.run ops)
        chr := o.onPatterns (b.run ops) } :=
  (run_append b ops [o]).trans (o.act_eq (b.run ops))

theorem chip_run_concat (b : Board) (ops : List Op) (o : Op) :
    (b.run (ops ++ [o])).chip = o.onChip (b.run ops).chip :=
  congrArg Board.chip (run_concat b ops o)

/-- What every operation on a chip keeps holds after a history if it held before. -/
theorem chip_preserves {P : Chip → Prop} (hstep : ∀ (o : Op) (c : Chip), P c → P (o.onChip c))
    {b : Board} (h : P b.chip) (ops : List Op) : P (b.run ops).chip := by
  induction ops generalizing b with
  | nil => exact h
  | cons o ops ih =>
    refine ih (b := o.act b) ?_
    rw [o.chip_act]
    exact hstep o b.chip h

/-! ### Kinds of chips -/

/-- The chips are of one kind, and wired in the same way. -/
inductive Chip.SameKind : Chip → Chip → Prop
  | nrom : SameKind nrom nrom
  | mmc1 (s s' : Mmc1) : SameKind (mmc1 s) (mmc1 s')
  | uxRom (bank bank' : UInt8) : SameKind (uxRom bank) (uxRom bank')
  | cnRom (mask bank bank' : UInt8) : SameKind (cnRom mask bank) (cnRom mask bank')
  | mmc3 (s s' : Mmc3) : SameKind (mmc3 s) (mmc3 s')
  | vrc {s s' : Vrc} (h : s'.wiring = s.wiring) : SameKind (vrc s) (vrc s')

theorem Vrc.wiring_write (s : Vrc) (addr : UInt16) (v : UInt8) :
    (s.write addr v).wiring = s.wiring := by
  unfold Vrc.write
  dsimp only
  split <;> try rfl
  · split
    · rfl
    · split <;> rfl
  · split <;> rfl

namespace Chip.SameKind

theorem refl (c : Chip) : SameKind c c := by
  cases c with
  | nrom => exact nrom
  | mmc1 s => exact mmc1 s s
  | uxRom bank => exact uxRom bank bank
  | cnRom mask bank => exact cnRom mask bank bank
  | mmc3 s => exact mmc3 s s
  | vrc s => exact vrc rfl

theorem onChip {c c' : Chip} (h : SameKind c c') (o : Op) : SameKind c (o.onChip c') := by
  cases o with
  | prgWrite addr v =>
    simp only [Op.onChip]
    split
    · cases h with
      | vrc h => exact vrc ((Vrc.wiring_write ..).trans h)
      | _ => constructor
    · exact h
  | chrWrite addr v => exact h
  | _ =>
    cases h with
    | vrc h => exact vrc h
    | _ => constructor

end Chip.SameKind

theorem sameKind_run (b : Board) (ops : List Op) : b.chip.SameKind (b.run ops).chip :=
  chip_preserves (fun o _ h => h.onChip o) (.refl b.chip) ops

section

variable {b : Board} (ops : List Op)

theorem chip_run_nrom (h : b.chip = .nrom) : (b.run ops).chip = .nrom := by
  have hkind := sameKind_run b ops
  rw [h] at hkind
  generalize (b.run ops).chip = c at hkind
  cases hkind
  rfl

theorem exists_uxRom_run {bank : UInt8} (h : b.chip = .uxRom bank) :
    ∃ bank', (b.run ops).chip = .uxRom bank' := by
  have hkind := sameKind_run b ops
  rw [h] at hkind
  generalize (b.run ops).chip = c at hkind
  cases hkind with
  | uxRom _ bank' => exact ⟨bank', rfl⟩

theorem exists_cnRom_run {mask bank : UInt8} (h : b.chip = .cnRom mask bank) :
    ∃ bank', (b.run ops).chip = .cnRom mask bank' := by
  have hkind := sameKind_run b ops
  rw [h] at hkind
  generalize (b.run ops).chip = c at hkind
  cases hkind with
  | cnRom _ _ bank' => exact ⟨bank', rfl⟩

theorem exists_mmc3_run {s : Mmc3} (h : b.chip = .mmc3 s) :
    ∃ s', (b.run ops).chip = .mmc3 s' := by
  have hkind := sameKind_run b ops
  rw [h] at hkind
  generalize (b.run ops).chip = c at hkind
  cases hkind with
  | mmc3 _ s' => exact ⟨s', rfl⟩

theorem exists_vrc_run {s : Vrc} (h : b.chip = .vrc s) :
    ∃ s', (b.run ops).chip = .vrc s' ∧ s'.wiring = s.wiring := by
  have hkind := sameKind_run b ops
  rw [h] at hkind
  generalize (b.run ops).chip = c at hkind
  cases hkind with
  | vrc hwiring => exact ⟨_, rfl, hwiring⟩

end

/-! ### The program -/

theorem prgRom_run (b : Board) (ops : List Op) : (b.run ops).prgRom = b.prgRom := by
  induction ops generalizing b with
  | nil => rfl
  | cons o ops ih =>
    refine (ih (o.act b)).trans ?_
    rw [o.act_eq]

end Nes.Board
