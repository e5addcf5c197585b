import Nes.Proofs.Board.Checked
import Nes.Proofs.Cartridge.Image

/-!
# A board stays inside its arrays

A board is written to through both buses, clocked and reset, in any order (`Board.Op`).  The
program and the patterns keep their lengths, and the registers of the chip keep to what
`Chip.Fits` says (`Sound`); so no history stops the machine, and neither does a read after it
(`accesses_checked`).  A board starts out sound because of what an image must have to be accepted.

A reset undoes what a history did to the banks of the program, so that a board shows the processor
after it what it showed at power-on (`prgRead_reset_run`, `prgRead_reset_ofCartridge`).
-/

namespace Nes

namespace Board

open Checked

/-- What happens to a board. -/
inductive Op
  /-- A write of the processor. -/
  | prgWrite (addr : UInt16) (v : UInt8)
  /-- A write of the picture unit. -/
  | chrWrite (addr : UInt16) (v : UInt8)
  /-- A line of the picture has been drawn. -/
  | clockLine
  /-- A cycle of the processor has passed. -/
  | clockCycle
  /-- A reset. -/
  | reset
deriving DecidableEq, Repr

/-- The board after an operation. -/
def Op.act : Op → Board → Board
  | prgWrite addr v => fun b => b.prgWrite addr v
  | chrWrite addr v => fun b => b.chrWrite addr v
  | clockLine => Board.clockLine
  | clockCycle => Board.clockCycle
  | reset => Board.reset

/-- The board after a history. -/
def run (b : Board) (ops : List Op) : Board := ops.foldl (fun b o => o.act b) b

theorem run_append (b : Board) (ops ops' : List Op) :
    b.run (ops ++ ops') = (b.run ops).run ops' := List.foldl_append

/-- `Op.act` on a machine that can stop. -/
def Op.act? : Op → Board → Option Board
  | prgWrite addr v => fun b => b.prgWrite? addr v
  | chrWrite addr v => fun b => b.chrWrite? addr v
  | clockLine => Board.clockLine?
  | clockCycle => Board.clockCycle?
  | reset => fun b => some b.reset

/-- `run` on a machine that can stop. -/
def run? (b : Board) (ops : List Op) : Option Board := ops.foldlM (fun b o => o.act? b) b

/-- `initialRam` where the trainer is copied inside the bounds of work memory. -/
def initialRam? : Option (Array UInt8) → Option (Vector UInt8 0x2000)
  | none => some (initialRam none)
  | some t => do
    let stop ← add 64 0x1000 t.size
    if stop ≤ 0x2000 then some (initialRam (some t)) else none

/-! ### What a chip keeps -/

namespace Vrc

theorem Fits.writeChr {s : Vrc} (h : s.Fits) (slot : Fin 8) (high : Bool) (v : UInt8) :
    (s.writeChr slot high v).Fits := by
  refine ⟨h.prescaler, fun i hi => ?_⟩
  have hv := v.toNat_lt
  have hbank := h.chr slot slot.isLt
  simp only [Vrc.writeChr, Vector.getElem_set, Fin.getElem_fin]
  split
  · split <;> omega
  · exact h.chr i hi

theorem Fits.writeIrq {s : Vrc} (h : s.Fits) (select : Bool × Bool) (v : UInt8) :
    (s.writeIrq select v).Fits := by
  refine ⟨?_, h.chr⟩
  have hprescaler := h.prescaler
  unfold Vrc.writeIrq
  split
  · exact hprescaler
  · exact hprescaler
  · simp only [CycleCounter.control]
    split
    · exact Nat.le_refl _
    · exact hprescaler
  · exact hprescaler

theorem Fits.write {s : Vrc} (h : s.Fits) (addr : UInt16) (v : UInt8) : (s.write addr v).Fits := by
  unfold Vrc.write
  dsimp only
  split
  · exact ⟨h.prescaler, h.chr⟩
  · split
    · exact ⟨h.prescaler, h.chr⟩
    · split
      · exact h
      · exact ⟨h.prescaler, h.chr⟩
  · exact ⟨h.prescaler, h.chr⟩
  · exact h.writeChr ..
  · exact h.writeChr ..
  · exact h.writeChr ..
  · exact h.writeChr ..
  · split
    · exact h
    · exact h.writeIrq ..

theorem prescaler_advance (c : CycleCounter) : c.advance.prescaler = c.prescaler := by
  unfold CycleCounter.advance
  split <;> rfl

theorem Fits.clock {s : Vrc} (h : s.Fits) : Fits { s with irq := s.irq.clock } := by
  refine ⟨?_, h.chr⟩
  have hprescaler := h.prescaler
  unfold CycleCounter.lineLength at hprescaler
  simp only [CycleCounter.clock, CycleCounter.lineLength]
  split
  · exact hprescaler
  · split
    · rwa [prescaler_advance]
    · split
      · rw [prescaler_advance]
        dsimp only
        omega
      · dsimp only
        omega

theorem fits_reset (s : Vrc) : s.reset.Fits := by
  refine ⟨Nat.zero_le _, fun i hi => ?_⟩
  simp [Vrc.reset]

end Vrc

namespace Chip

theorem Fits.write {c : Chip} {chrSize : Nat} (h : c.Fits chrSize) (addr : UInt16) (v : UInt8) :
    (c.write addr v).Fits chrSize := by
  cases c with
  | vrc s => exact Vrc.Fits.write h addr v
  | _ => exact h

theorem Fits.clockCycle {c : Chip} {chrSize : Nat} (h : c.Fits chrSize) :
    c.clockCycle.Fits chrSize := by
  cases c with
  | vrc s => exact Vrc.Fits.clock h
  | _ => exact h

theorem Fits.clockLine {c : Chip} {chrSize : Nat} (h : c.Fits chrSize) :
    c.clockLine.Fits chrSize := by
  cases c <;> exact h

theorem Fits.reset {c : Chip} {chrSize : Nat} (h : c.Fits chrSize) : c.reset.Fits chrSize := by
  cases c with
  | vrc s => exact s.fits_reset
  | _ => exact h

end Chip

theorem fits_chipFor {cart : Cartridge} {c : Chip} (h : chipFor cart = some c) :
    c.Fits cart.chr.size := by
  have hvrc (wiring : Wiring) : Vrc.Fits { wiring, mirroring := cart.mirroring } :=
    Vrc.fits_reset { wiring, mirroring := cart.mirroring }
  unfold chipFor at h
  dsimp only at h
  split at h
  all_goals cases h
  all_goals first | trivial | exact hvrc _

/-! ### A history -/

/-- There is a program and there are patterns, of a length that is a number of 64 bits, and the chip
keeps its registers in order. -/
structure Sound (b : Board) : Prop where
  /-- There is a program. -/
  prg_pos : 0 < b.prgRom.size
  /-- Its length fits a word. -/
  prg_lt : b.prgRom.size < 2 ^ 64
  /-- There are patterns. -/
  chr_pos : 0 < b.chr.size
  /-- Their length fits a word. -/
  chr_lt : b.chr.size < 2 ^ 64
  /-- The registers are in order. -/
  chip : b.chip.Fits b.chr.size

theorem ramIndex_eq {addr : UInt16} (hhigh : ¬ addr ≥ 0x8000)
    (hlow : decide (addr ≥ 0x6000) = true) :
    0x6000 ≤ addr.toNat ∧ (ramIndex addr).val = addr.toNat - 0x6000 := by
  have hge : 0x6000 ≤ addr.toNat := UInt16.le_iff_toNat_le.1 (of_decide_eq_true hlow)
  have hlt : ¬ 0x8000 ≤ addr.toNat := fun h => hhigh (UInt16.le_iff_toNat_le.2 h)
  refine ⟨hge, ?_⟩
  simp only [ramIndex]
  omega

namespace Sound

variable {b : Board}

theorem withChip (h : b.Sound) {c : Chip} (hc : c.Fits b.chr.size) : Sound { b with chip := c } :=
  ⟨h.prg_pos, h.prg_lt, h.chr_pos, h.chr_lt, hc⟩

theorem act (h : b.Sound) (o : Op) : (o.act b).Sound := by
  cases o with
  | prgWrite addr v =>
    simp only [Op.act, prgWrite]
    split
    · exact h.withChip (h.chip.write addr v)
    · split
      · exact ⟨h.prg_pos, h.prg_lt, h.chr_pos, h.chr_lt, h.chip⟩
      · exact h
  | chrWrite addr v =>
    simp only [Op.act, chrWrite]
    split
    · have hsize : (b.chr.setIfInBounds (b.chrIndex addr) v).size = b.chr.size :=
        Array.size_setIfInBounds
      exact ⟨h.prg_pos, h.prg_lt, hsize ▸ h.chr_pos, hsize ▸ h.chr_lt, hsize ▸ h.chip⟩
    · exact h
  | clockLine =>
    simp only [Op.act, clockLine]
    split
    · exact h.withChip h.chip.clockLine
    · exact h
  | clockCycle =>
    simp only [Op.act, clockCycle]
    split
    · exact h.withChip h.chip.clockCycle
    · exact h
  | reset => exact h.withChip h.chip.reset

theorem run (h : b.Sound) (ops : List Op) : (b.run ops).Sound := by
  induction ops generalizing b with
  | nil => exact h
  | cons o ops ih => exact ih (h.act o)

theorem act?_eq (h : b.Sound) (o : Op) : o.act? b = some (o.act b) := by
  cases o with
  | prgWrite addr v =>
    simp only [Op.act?, Op.act, prgWrite?, prgWrite]
    by_cases hrom : addr ≥ 0x8000
    · rw [if_pos hrom, if_pos hrom]
      exact bind_eq (Chip.write?_eq h.chr_lt h.chip addr v) rfl
    · rw [if_neg hrom, if_neg hrom]
      split
      · next hram =>
        obtain ⟨hlow, hindex⟩ := ramIndex_eq hrom (Bool.and_eq_true_iff.1 hram).1
        refine bind_eq (sub_eq hlow) ?_
        rw [dif_pos (hindex ▸ (ramIndex addr).isLt)]
        simp only [← hindex]
      · rfl
  | chrWrite addr v =>
    simp only [Op.act?, Op.act, chrWrite?, chrWrite]
    split
    · refine bind_eq (Chip.chrIndex?_eq _ h.chr_pos h.chr_lt addr) ?_
      have hlt := b.chrIndex_lt addr h.chr_pos
      refine (dif_pos hlt).trans ?_
      rw [Array.setIfInBounds, dif_pos hlt]
      rfl
    · rfl
  | clockLine =>
    obtain ⟨prgRom, chr, chrIsRam, prgRam, wired, chip⟩ := b
    cases chip with
    | mmc3 s => exact bind_eq s.lines.clock?_eq rfl
    | _ => rfl
  | clockCycle =>
    obtain ⟨prgRom, chr, chrIsRam, prgRam, wired, chip⟩ := b
    cases chip with
    | vrc s => exact bind_eq (CycleCounter.clock?_eq h.chip.prescaler) rfl
    | _ => rfl
  | reset => rfl

theorem run?_eq (h : b.Sound) (ops : List Op) : b.run? ops = some (b.run ops) := by
  induction ops generalizing b with
  | nil => rfl
  | cons o ops ih => exact bind_eq (h.act?_eq o) (ih (h.act o))

theorem prgRead?_eq (h : b.Sound) (addr : UInt16) : b.prgRead? addr = some (b.prgRead addr) := by
  unfold prgRead? prgRead
  by_cases hrom : addr ≥ 0x8000
  · rw [if_pos hrom, if_pos hrom]
    refine bind_eq (Chip.prgIndex?_eq _ h.prg_pos h.prg_lt (UInt16.le_iff_toNat_le.1 hrom)) ?_
    exact Cartridge.getElem?_of_lt (b.prgIndex_lt addr h.prg_pos)
  · rw [if_neg hrom, if_neg hrom]
    split
    · next hram =>
      obtain ⟨hlow, hindex⟩ := ramIndex_eq hrom (Bool.and_eq_true_iff.1 hram).1
      refine bind_eq (sub_eq hlow) ?_
      rw [← hindex]
      exact Vector.getElem?_eq_getElem (ramIndex addr).isLt
    · rfl

theorem chrRead?_eq (h : b.Sound) (addr : UInt16) : b.chrRead? addr = some (b.chrRead addr) :=
  bind_eq (Chip.chrIndex?_eq _ h.chr_pos h.chr_lt addr)
    (Cartridge.getElem?_of_lt (b.chrIndex_lt addr h.chr_pos))

end Sound

/-! ### A board of an accepted image -/

theorem initialRam?_eq {trainer : Option (Array UInt8)} (h : ∀ t, trainer = some t → t.size = 512) :
    initialRam? trainer = some (initialRam trainer) := by
  cases trainer with
  | none => rfl
  | some t =>
    have hsize := h t rfl
    exact bind_eq (add_eq (by omega)) (if_pos (by omega))

theorem sound_ofCartridge {cart : Cartridge} {b : Board} (hb : ofCartridge cart = some b)
    (hprg : 0 < cart.prgRom.size ∧ cart.prgRom.size < 2 ^ 64)
    (hchr : 0 < cart.chr.size ∧ cart.chr.size < 2 ^ 64) : b.Sound := by
  obtain ⟨c, hc, rfl⟩ := Option.map_eq_some_iff.1 hb
  exact ⟨hprg.1, hprg.2, hchr.1, hchr.2, fits_chipFor hc⟩

/-- A board of an accepted image, with any wiring, never stops the machine: its work memory has room
for the trainer, no history of writes, clocks and resets leads out of an array or a word, and after
it every address reads a byte that is there. -/
theorem accesses_checked {data : Array UInt8} {cart : Cartridge}
    (hcart : Cartridge.ofBytes data = .ok cart) (wired : Mirroring) {b : Board}
    (hb : ofCartridge { cart with mirroring := wired } = some b) (ops : List Op) :
    initialRam? cart.trainer = some b.prgRam ∧
    b.run? ops = some (b.run ops) ∧
    (∀ addr, (b.run ops).prgRead? addr = some ((b.run ops).prgRead addr)) ∧
    (∀ addr, (b.run ops).chrRead? addr = some ((b.run ops).chrRead addr)) ∧
    (∀ addr, (b.run ops).prgIndex addr < (b.run ops).prgRom.size) ∧
    ∀ addr, (b.run ops).chrIndex addr < (b.run ops).chr.size := by
  obtain ⟨hprg, hchr, htrainer⟩ := Cartridge.Image.sizes_of_ofBytes hcart
  have hsound := sound_ofCartridge hb hprg hchr
  have hrun := hsound.run ops
  have hram : b.prgRam = initialRam cart.trainer := by
    obtain ⟨c, -, rfl⟩ := Option.map_eq_some_iff.1 hb
    rfl
  exact ⟨hram ▸ initialRam?_eq htrainer, hsound.run?_eq ops, hrun.prgRead?_eq, hrun.chrRead?_eq,
    fun addr => prgIndex_lt _ addr hrun.prg_pos, fun addr => chrIndex_lt _ addr hrun.chr_pos⟩

/-- An image for a VRC4 with one byte of program and 128 bytes of pattern memory. -/
def smallImage : Array UInt8 :=
  #[0x4E, 0x45, 0x53, 0x1A, 0, 0, 0x70, 0x18, 0, 0x0F, 0, 1, 0, 0, 0, 0, 0xEA]

theorem accesses_checked_smallImage :
    ∃ cart b, Cartridge.ofBytes smallImage = .ok cart ∧
      ofCartridge { cart with mirroring := .fourScreen } = some b ∧
      initialRam? cart.trainer = some b.prgRam ∧
      b.run? [.prgWrite 0xF002 2, .clockCycle, .chrWrite 0x1234 1, .clockLine, .reset] =
        some (b.run [.prgWrite 0xF002 2, .clockCycle, .chrWrite 0x1234 1, .clockLine, .reset]) := by
  have hread : (Cartridge.ofBytes smallImage).toOption.map (·.mapperId) = some 23 := by
    decide +kernel
  obtain ⟨cart, hcart, hid⟩ :
      ∃ cart, Cartridge.ofBytes smallImage = .ok cart ∧ cart.mapperId = 23 := by
    cases h : Cartridge.ofBytes smallImage with
    | error e => simp [h, Except.toOption] at hread
    | ok cart => exact ⟨cart, rfl, by simpa [h, Except.toOption] using hread⟩
  obtain ⟨b, hb⟩ : ∃ b, ofCartridge { cart with mirroring := .fourScreen } = some b := by
    simp [ofCartridge, chipFor, hid]
  obtain ⟨hram, hrun, -⟩ := accesses_checked hcart .fourScreen hb
    [.prgWrite 0xF002 2, .clockCycle, .chrWrite 0x1234 1, .clockLine, .reset]
  exact ⟨cart, b, hcart, hb, hram, hrun⟩

/-! ### What a reset undoes -/

/-- The byte of the program that a reset board shows. -/
theorem prgRead_reset (b : Board) {addr : UInt16} (h : addr ≥ 0x8000) :
    b.reset.prgRead addr =
      b.prgRom.getD (bankIndex (b.chip.reset.prgBank b.prgRom.size addr) b.chip.reset.prgWindow
        addr b.prgRom.size) 0 :=
  if_pos h

namespace Chip

/-- After a reset, the windows of a chip do not tell what was written to it. -/
theorem reset_write (c : Chip) (addr : UInt16) (v : UInt8) :
    (c.write addr v).reset.prgBank = c.reset.prgBank ∧
      (c.write addr v).reset.prgWindow = c.reset.prgWindow := by
  cases c <;> exact ⟨rfl, rfl⟩

theorem reset_clockLine (c : Chip) :
    c.clockLine.reset.prgBank = c.reset.prgBank ∧
      c.clockLine.reset.prgWindow = c.reset.prgWindow := by
  cases c <;> exact ⟨rfl, rfl⟩

theorem reset_clockCycle (c : Chip) :
    c.clockCycle.reset.prgBank = c.reset.prgBank ∧
      c.clockCycle.reset.prgWindow = c.reset.prgWindow := by
  cases c <;> exact ⟨rfl, rfl⟩

theorem reset_reset (c : Chip) :
    c.reset.reset.prgBank = c.reset.prgBank ∧ c.reset.reset.prgWindow = c.reset.prgWindow := by
  cases c <;> exact ⟨rfl, rfl⟩

end Chip

theorem prgRead_reset_withChip (b : Board) {c : Chip}
    (hc : c.reset.prgBank = b.chip.reset.prgBank ∧ c.reset.prgWindow = b.chip.reset.prgWindow)
    {addr : UInt16} (h : addr ≥ 0x8000) :
    ({ b with chip := c } : Board).reset.prgRead addr = b.reset.prgRead addr := by
  rw [prgRead_reset _ h, prgRead_reset _ h, hc.1, hc.2]

/-- Nothing that happens to a board moves what it shows of the program after a reset. -/
theorem Op.prgRead_reset (o : Op) (b : Board) {addr : UInt16} (h : addr ≥ 0x8000) :
    (o.act b).reset.prgRead addr = b.reset.prgRead addr := by
  cases o with
  | prgWrite addr' v =>
    simp only [act, Board.prgWrite]
    split
    · exact prgRead_reset_withChip b (b.chip.reset_write addr' v) h
    · split
      · rw [Board.prgRead_reset _ h, Board.prgRead_reset _ h]
      · rfl
  | chrWrite addr' v =>
    simp only [act, Board.chrWrite]
    split
    · rw [Board.prgRead_reset _ h, Board.prgRead_reset _ h]
    · rfl
  | clockLine =>
    simp only [act, Board.clockLine]
    split
    · exact prgRead_reset_withChip b b.chip.reset_clockLine h
    · rfl
  | clockCycle =>
    simp only [act, Board.clockCycle]
    split
    · exact prgRead_reset_withChip b b.chip.reset_clockCycle h
    · rfl
  | reset => exact prgRead_reset_withChip b b.chip.reset_reset h

theorem prgRead_reset_run (b : Board) (ops : List Op) {addr : UInt16} (h : addr ≥ 0x8000) :
    (b.run ops).reset.prgRead addr = b.reset.prgRead addr := by
  induction ops generalizing b with
  | nil => rfl
  | cons o ops ih => exact (ih (o.act b)).trans (o.prgRead_reset b h)

/-- At power-on, a board shows what it shows after a reset. -/
theorem prgRead_reset_ofCartridge {cart : Cartridge} {b : Board} (hb : ofCartridge cart = some b)
    {addr : UInt16} (h : addr ≥ 0x8000) : b.reset.prgRead addr = b.prgRead addr := by
  obtain ⟨c, hc, rfl⟩ := Option.map_eq_some_iff.1 hb
  have hchip : c.reset.prgBank = c.prgBank ∧ c.reset.prgWindow = c.prgWindow := by
    unfold chipFor at hc
    dsimp only at hc
    split at hc
    all_goals cases hc
    all_goals exact ⟨rfl, rfl⟩
  rw [prgRead_reset _ h, prgRead, if_pos h, prgIndex, hchip.1, hchip.2]

end Board

end Nes
