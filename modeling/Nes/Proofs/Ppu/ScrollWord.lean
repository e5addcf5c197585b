import Nes.Proofs.Checked
import Nes.Proofs.Ppu.Pipeline
import Mathlib.Data.Fin.Basic

/-!
# Scroll positions in words

The picture unit keeps a position of the nametables in a word of 16 bits, and moves it with masks,
shifts and sums (`Word`).  The functions here take such words; on the address of a `Scroll` each of
them answers the address of what the library's function answers, and no sum leaves the word
(`Word.nextTile?_toNat`, `Word.nextRow?_toNat`).

A word of 15 bits is told by its five fields (`Scroll.eq_toNat`), and a mask keeps or drops each of
them (`field_keep`, `field_drop`).
-/

namespace Nes.Ppu

open Checked

/-! ### Fields -/

/-- The `length` bits of a number from bit `start` on. -/
def field (start length n : Nat) : Nat := n / 2 ^ start % 2 ^ length

section Field

variable {start length mask k : Nat} (a b : Nat)

@[simp]
theorem field_or :
    field start length (a ||| b) = field start length a ||| field start length b := by
  rw [field, Nat.or_div_two_pow, Nat.or_mod_two_pow, field, field]

theorem field_xor :
    field start length (a ^^^ b) = field start length a ^^^ field start length b := by
  rw [field, Nat.xor_div_two_pow, Nat.xor_mod_two_pow, field, field]

theorem field_and :
    field start length (a &&& b) = field start length a &&& field start length b := by
  rw [field, Nat.and_div_two_pow, Nat.and_mod_two_pow, field, field]

@[simp]
theorem field_keep (h : field start length mask = 2 ^ length - 1) :
    field start length (a &&& mask) = field start length a := by
  rw [field_and, h, Nat.and_two_pow_sub_one_eq_mod, field, Nat.mod_mod]

@[simp]
theorem field_drop (h : field start length mask = 0) : field start length (a &&& mask) = 0 := by
  rw [field_and, h, Nat.and_zero]

@[simp]
theorem field_flip (h : field start length mask = 0) :
    field start length (a ^^^ mask) = field start length a := by
  rw [field_xor, h, Nat.xor_zero]

@[simp]
theorem field_shiftLeft (h : k ≤ start) :
    field start length (a <<< k) = field (start - k) length a := by
  rw [field, field, Nat.shiftLeft_eq, ← Nat.sub_add_cancel h, Nat.pow_add,
    Nat.mul_div_mul_right _ _ (Nat.two_pow_pos k), Nat.sub_add_cancel h]

@[simp]
theorem field_shiftLeft_low (h : start + length ≤ k) : field start length (a <<< k) = 0 := by
  have hk : k = start + (length + (k - (start + length))) := by omega
  rw [field, Nat.shiftLeft_eq, hk, Nat.pow_add, Nat.mul_left_comm,
    Nat.mul_div_cancel_left _ (Nat.two_pow_pos start), Nat.pow_add, Nat.mul_left_comm,
    Nat.mul_mod_right]

theorem field_shiftRight :
    field start length (a >>> k) = field (start + k) length a := by
  rw [field, field, Nat.shiftRight_eq_div_pow, Nat.div_div_eq_div_mul, ← Nat.pow_add,
    Nat.add_comm k]

theorem field_zero (h : a < 2 ^ length) : field 0 length a = a := by
  rw [field, Nat.pow_zero, Nat.div_one, Nat.mod_eq_of_lt h]

theorem field_eq_zero (h : a < 2 ^ k) (hk : k ≤ start) : field start length a = 0 := by
  rw [field, Nat.div_eq_of_lt (Nat.lt_of_lt_of_le h (Nat.pow_le_pow_right Nat.two_pos hk)),
    Nat.zero_mod]

end Field

namespace Scroll

variable (s : Scroll)

@[simp]
theorem field_coarseX : field 0 5 s.toNat = s.coarseX := by
  have := s.coarseX.isLt
  simp only [field, toNat]
  omega

@[simp]
theorem field_coarseY : field 5 5 s.toNat = s.coarseY := by
  have := s.coarseX.isLt
  have := s.coarseY.isLt
  simp only [field, toNat]
  omega

@[simp]
theorem field_tableX : field 10 1 s.toNat = s.tableX.toNat := by
  have := s.coarseX.isLt
  have := s.coarseY.isLt
  have := s.tableX.toNat_lt
  simp only [field, toNat]
  omega

@[simp]
theorem field_tableY : field 11 1 s.toNat = s.tableY.toNat := by
  have := s.coarseX.isLt
  have := s.coarseY.isLt
  have := s.tableX.toNat_lt
  have := s.tableY.toNat_lt
  simp only [field, toNat]
  omega

@[simp]
theorem field_fineY : field 12 3 s.toNat = s.fineY := by
  have := s.coarseX.isLt
  have := s.coarseY.isLt
  have := s.fineY.isLt
  have := s.tableX.toNat_lt
  have := s.tableY.toNat_lt
  simp only [field, toNat]
  omega

/-- A word is the address of a position if its fields are the position's. -/
theorem eq_toNat {n : Nat} (hn : n < 2 ^ 15)
    (coarseX : field 0 5 n = s.coarseX) (coarseY : field 5 5 n = s.coarseY)
    (tableX : field 10 1 n = s.tableX.toNat) (tableY : field 11 1 n = s.tableY.toNat)
    (fineY : field 12 3 n = s.fineY) : n = s.toNat := by
  simp only [field] at *
  simp only [toNat]
  omega

end Scroll

namespace Word

/-! ### Moving on -/

/-- `Scroll.nextTile` of a word. -/
def nextTile? (v : Nat) : Option Nat :=
  if v &&& 0x001F = 31 then some ((v &&& 0xFFE0) ^^^ 0x0400) else add 16 v 1

/-- The row of a word's tile replaced. -/
def putRow? (v row : Nat) : Option Nat := do
  let bits ← shl 16 row 5
  some ((v &&& 0xFC1F) ||| bits)

/-- `Scroll.nextRow` of a word. -/
def nextRow? (v : Nat) : Option Nat :=
  if v &&& 0x7000 ≠ 0x7000 then add 16 v 0x1000
  else
    let v := v &&& 0x8FFF
    let row := (v &&& 0x03E0) >>> 5
    if row = 29 then putRow? (v ^^^ 0x0800) 0
    else if row = 31 then putRow? v 0
    else do
      let row ← add 16 row 1
      putRow? v row

/-- `Scroll.takeX` of words. -/
def takeX (v t : Nat) : Nat := (v &&& 0xFBE0) ||| (t &&& 0x041F)

/-- `Scroll.takeY` of words. -/
def takeY (v t : Nat) : Nat := (v &&& 0x841F) ||| (t &&& 0x7BE0)

/-- `Scroll.advance` of a word: a sum that starts again from zero. -/
def advance (v n : Nat) : Nat := (v + n) % 0x10000 &&& 0x7FFF

variable (s t : Scroll)

theorem and_31 : s.toNat &&& 0x001F = s.coarseX := by
  rw [← s.field_coarseX, field, Nat.pow_zero, Nat.div_one]
  exact Nat.and_two_pow_sub_one_eq_mod s.toNat 5

theorem toNat_and_lt (mask : Nat) : s.toNat &&& mask < 2 ^ 15 :=
  Nat.lt_of_le_of_lt Nat.and_le_left s.toNat_lt

theorem takeX_toNat : takeX s.toNat t.toNat = (s.takeX t).toNat := by
  refine Scroll.eq_toNat _ (Nat.or_lt_two_pow (toNat_and_lt ..) (toNat_and_lt ..)) ?_ ?_ ?_ ?_ ?_
  all_goals simp (disch := decide) [takeX, Scroll.takeX]

theorem takeY_toNat : takeY s.toNat t.toNat = (s.takeY t).toNat := by
  refine Scroll.eq_toNat _ (Nat.or_lt_two_pow (toNat_and_lt ..) (toNat_and_lt ..)) ?_ ?_ ?_ ?_ ?_
  all_goals simp (disch := decide) [takeY, Scroll.takeY]

theorem advance_toNat (n : Nat) : advance s.toNat n = (s.advance n).toNat := by
  rw [Scroll.advance, Scroll.toNat_ofNat]
  refine (Nat.and_two_pow_sub_one_eq_mod _ 15).trans ?_
  omega

theorem toNat_not (b : Bool) {mask : Nat} (h : mask = 1) : b.toNat ^^^ mask = (!b).toNat := by
  subst h
  cases b <;> rfl

theorem nextTile?_toNat : nextTile? s.toNat = some s.nextTile.toNat := by
  have hx := s.coarseX.isLt
  unfold nextTile? Scroll.nextTile
  rw [and_31]
  by_cases hlast : s.coarseX.val = 31
  · rw [if_pos hlast, if_pos hlast]
    refine congrArg some (Scroll.eq_toNat _ (Nat.xor_lt_two_pow (toNat_and_lt ..) (by decide))
      ?_ ?_ ?_ ?_ ?_)
    · simp (disch := decide)
    · simp (disch := decide)
    · rw [field_xor, field_keep _ (by decide), Scroll.field_tableX, toNat_not _ (by decide)]
    · simp (disch := decide)
    · simp (disch := decide)
  · rw [if_neg hlast, if_neg hlast]
    have hnext : (s.coarseX + 1).val = s.coarseX.val + 1 := Fin.val_add_one_of_lt' (by omega)
    have := s.toNat_lt
    rw [add_eq (by omega)]
    simp only [Scroll.toNat, hnext, Nat.add_assoc]

/-- The bits of the row of pixels. -/
theorem and_0x7000 : s.toNat &&& 0x7000 = s.fineY.val * 0x1000 := by
  have hfine : s.toNat &&& 0x7000 = ({ fineY := s.fineY } : Scroll).toNat := by
    refine Scroll.eq_toNat _ (toNat_and_lt ..) ?_ ?_ ?_ ?_ ?_
    all_goals simp (disch := decide)
  rw [hfine]
  simp only [Scroll.toNat, Bool.toNat_false, Fin.val_zero, Nat.zero_mul, Nat.add_zero]

/-- The bits of the row of tiles. -/
theorem and_0x3E0 : (s.toNat &&& 0x03E0) >>> 5 = s.coarseY := by
  have hrow : s.toNat &&& 0x03E0 = ({ coarseY := s.coarseY } : Scroll).toNat := by
    refine Scroll.eq_toNat _ (toNat_and_lt ..) ?_ ?_ ?_ ?_ ?_
    all_goals simp (disch := decide)
  rw [hrow, Nat.shiftRight_eq_div_pow]
  simp only [Scroll.toNat, Bool.toNat_false, Fin.val_zero, Nat.zero_mul, Nat.add_zero, Nat.zero_add]
  exact Nat.mul_div_cancel _ (Nat.two_pow_pos 5)

theorem and_0x8FFF : s.toNat &&& 0x8FFF = ({ s with fineY := 0 } : Scroll).toNat := by
  refine Scroll.eq_toNat _ (toNat_and_lt ..) ?_ ?_ ?_ ?_ ?_
  all_goals simp (disch := decide)

theorem xor_0x800 : s.toNat ^^^ 0x0800 = ({ s with tableY := !s.tableY } : Scroll).toNat := by
  refine Scroll.eq_toNat _ (Nat.xor_lt_two_pow s.toNat_lt (by decide)) ?_ ?_ ?_ ?_ ?_
  · simp (disch := decide)
  · simp (disch := decide)
  · simp (disch := decide)
  · rw [field_xor, Scroll.field_tableY, toNat_not _ (by decide)]
  · simp (disch := decide)

theorem putRow?_toNat (row : Fin 32) :
    putRow? s.toNat row = some ({ s with coarseY := row } : Scroll).toNat := by
  have hrow : row.val <<< 5 < 2 ^ 15 := by
    rw [Nat.shiftLeft_eq]
    omega
  have hbits : field 0 5 row.val = row := field_zero _ row.isLt
  refine bind_eq (shl_eq (by decide) (Nat.lt_trans hrow (by decide))) (congrArg some ?_)
  refine Scroll.eq_toNat _ (Nat.or_lt_two_pow (toNat_and_lt ..) hrow) ?_ ?_ ?_ ?_ ?_
  · simp (disch := decide)
  · simp (disch := decide) [hbits]
  all_goals simp (disch := decide) [field_eq_zero _ (k := 5) row.isLt]

theorem nextRow?_toNat : nextRow? s.toNat = some s.nextRow.toNat := by
  have hfine := s.fineY.isLt
  have hlt := s.toNat_lt
  unfold nextRow? Scroll.nextRow
  simp only [and_0x7000, and_0x8FFF, and_0x3E0, xor_0x800]
  by_cases hlast : s.fineY.val = 7
  · simp only [hlast, ne_eq, not_true_eq_false, ↓reduceIte]
    by_cases h29 : s.coarseY.val = 29
    · rw [if_pos h29, if_pos h29]
      exact putRow?_toNat _ 0
    · rw [if_neg h29, if_neg h29]
      split_ifs with h31
      · have hnext : s.coarseY + 1 = 0 := Fin.ext (by rw [Fin.val_add, h31]; rfl)
        rw [hnext]
        exact putRow?_toNat _ 0
      · have hnext : (s.coarseY + 1).val = s.coarseY.val + 1 := Fin.val_add_one_of_lt' (by omega)
        refine bind_eq (add_eq (by omega)) ?_
        rw [← hnext]
        exact putRow?_toNat _ (s.coarseY + 1)
  · -- Within a tile the next row of pixels is a sum in the highest field.
    have hbits : s.fineY.val * 0x1000 ≠ 0x7000 := by omega
    have hnext : (s.fineY + 1).val = s.fineY.val + 1 := Fin.val_add_one_of_lt' (by omega)
    rw [if_pos hbits, if_pos hlast, add_eq (Nat.add_lt_add hlt (by decide : 0x1000 < 0x8000))]
    refine congrArg some ?_
    simp only [Scroll.toNat, hnext]
    omega

/-! ### Addresses -/

/-- `Scroll.tileAddr` of a word. -/
def tileAddr (v : Nat) : Nat := 0x2000 ||| (v &&& 0x0FFF)

/-- `Scroll.attributeAddr` of a word. -/
def attributeAddr (v : Nat) : Nat :=
  0x23C0 ||| (v &&& 0x0C00) ||| (v >>> 4 &&& 0x38) ||| (v >>> 2 &&& 0x07)

/-- `Scroll.attributeBits` of a word. -/
def attributeBits (v : Nat) (attributes : UInt8) : UInt8 :=
  let half := if v >>> 5 &&& 2 ≠ 0 then attributes >>> 4 else attributes
  let quarter := if v &&& 2 ≠ 0 then half >>> 2 else half
  quarter &&& 3

theorem tileAddr_toNat : tileAddr s.toNat = s.tileAddr := by
  have hlow : s.toNat &&& 0x0FFF = s.toNat % 0x1000 := Nat.and_two_pow_sub_one_eq_mod s.toNat 12
  rw [tileAddr, hlow, Scroll.tileAddr]
  exact (Nat.two_pow_add_eq_or_of_lt (i := 13) (by omega) 1).symm

/-- A sum of the parts of an attribute's address is what the masks take from it, part by part. -/
theorem attributeAddr_toNat : attributeAddr s.toNat = s.attributeAddr := by
  have hx := s.coarseX.isLt
  have hy := s.coarseY.isLt
  have htx := s.tableX.toNat_lt
  have hty := s.tableY.toNat_lt
  have hfieldX : field 2 3 s.toNat = s.coarseX / 4 := by
    simp only [field, Scroll.toNat]
    omega
  have hfieldY : field 7 3 s.toNat = s.coarseY / 4 := by
    simp only [field, Scroll.toNat]
    omega
  have hword : attributeAddr s.toNat < 2 ^ 16 :=
    Nat.or_lt_two_pow (Nat.or_lt_two_pow (Nat.or_lt_two_pow (by decide)
      (Nat.and_lt_two_pow _ (by decide))) (Nat.and_lt_two_pow _ (by decide)))
      (Nat.and_lt_two_pow _ (by decide))
  -- The parts lie next to each other and fill the word.
  have hparts : field 0 3 (attributeAddr s.toNat) = s.coarseX / 4 ∧
      field 3 3 (attributeAddr s.toNat) = s.coarseY / 4 ∧
      field 6 4 (attributeAddr s.toNat) = 15 ∧
      field 10 1 (attributeAddr s.toNat) = s.tableX.toNat ∧
      field 11 1 (attributeAddr s.toNat) = s.tableY.toNat ∧
      field 12 4 (attributeAddr s.toNat) = 2 := by
    refine ⟨?_, ?_, ?_, ?_, ?_, ?_⟩
    all_goals simp (disch := decide) only [attributeAddr, field_or, field_keep, field_drop,
      field_shiftRight, Scroll.field_tableX, Scroll.field_tableY, hfieldX, hfieldY, Nat.or_zero]
    all_goals first | rfl | exact Nat.zero_or _
  simp only [field] at hparts
  rw [Scroll.attributeAddr]
  omega

theorem and_two_ne_zero (n : Nat) : n &&& 2 ≠ 0 ↔ n / 2 % 2 = 1 := by
  rw [show (2 : Nat) = 2 ^ 1 from rfl, Nat.and_two_pow, Nat.testBit_eq_decide_div_mod_eq]
  simp

theorem attributeBits_toNat (attributes : UInt8) :
    attributeBits s.toNat attributes = s.attributeBits attributes := by
  have hx := s.coarseX.isLt
  have hy := s.coarseY.isLt
  have hlower : s.toNat >>> 5 / 2 % 2 = s.coarseY / 2 % 2 := by
    rw [Nat.shiftRight_eq_div_pow]
    simp only [Scroll.toNat]
    omega
  have hright : s.toNat / 2 % 2 = s.coarseX / 2 % 2 := by
    simp only [Scroll.toNat]
    omega
  have htwice : attributes >>> 4 >>> 2 = attributes >>> 6 := by
    rw [← UInt8.toNat_inj]
    exact (Nat.shiftRight_add _ 4 2).symm
  unfold attributeBits Scroll.attributeBits
  simp only [and_two_ne_zero, hlower, hright]
  rcases Nat.mod_two_eq_zero_or_one (s.coarseY.val / 2) with hl | hl <;>
    rcases Nat.mod_two_eq_zero_or_one (s.coarseX.val / 2) with hr | hr
  · simp [hl, hr]
  · simp [hl, hr]
  · simp [hl, hr]
  · simp [hl, hr, htwice]

/-! ### Writes -/

/-- The tables of a word set from the low bits of a byte. -/
def setTables (t : Nat) (d : UInt8) : Nat := (t &&& 0xF3FF) ||| (d.toNat &&& 3) <<< 10

/-- The column of a word's tile set from the high bits of a byte. -/
def setColumn (t : Nat) (d : UInt8) : Nat := (t &&& 0xFFE0) ||| d.toNat >>> 3

/-- The row of a word's tile and the row of pixels within it set from a byte. -/
def setRow (t : Nat) (d : UInt8) : Nat :=
  (t &&& 0x8C1F) ||| (d.toNat &&& 7) <<< 12 ||| (d.toNat &&& 0xF8) <<< 2

/-- The high byte of a word set from the low bits of a byte. -/
def setHigh (t : Nat) (d : UInt8) : Nat := (t &&& 0x80FF) ||| (d.toNat &&& 0x3F) <<< 8

/-- The low byte of a word set from a byte. -/
def setLow (t : Nat) (d : UInt8) : Nat := (t &&& 0xFF00) ||| d.toNat

theorem toNat_and_lt_byte (d : UInt8) (mask : Nat) : d.toNat &&& mask < 2 ^ 8 :=
  Nat.lt_of_le_of_lt Nat.and_le_left d.toNat_lt

/-- A bit of a byte as a field. -/
theorem field_toNat (d mask : UInt8) {i : Nat} (h : mask.toNat = 2 ^ i) :
    field i 1 d.toNat = (d &&& mask != 0).toNat := by
  rw [and_bit_ne_zero d mask h, field, Nat.testBit_eq_decide_div_mod_eq]
  rcases Nat.mod_two_eq_zero_or_one (d.toNat / 2 ^ i) with hbit | hbit <;> simp [hbit]

theorem setTables_toNat (d : UInt8) :
    setTables t.toNat d =
      ({ t with tableX := d &&& 1 != 0, tableY := d &&& 2 != 0 } : Scroll).toNat := by
  have htables : (d.toNat &&& 3) <<< 10 < 2 ^ 15 := by
    have : d.toNat &&& 3 < 2 ^ 2 := Nat.and_lt_two_pow _ (by decide)
    rw [Nat.shiftLeft_eq]
    omega
  refine Scroll.eq_toNat _ (Nat.or_lt_two_pow (toNat_and_lt ..) htables) ?_ ?_ ?_ ?_ ?_
  · simp (disch := decide) [setTables]
  · simp (disch := decide) [setTables]
  · simp (disch := decide) [setTables, field_toNat d 1 (i := 0) rfl]
  · simp (disch := decide) [setTables, field_toNat d 2 (i := 1) rfl]
  · simp (disch := decide) [setTables]

theorem setColumn_toNat (d : UInt8) :
    setColumn t.toNat d = ({ t with coarseX := Bits.high5 d } : Scroll).toNat := by
  have hd := d.toNat_lt
  have hcolumn : d.toNat >>> 3 = d.toNat / 8 := Nat.shiftRight_eq_div_pow ..
  have hlt : d.toNat / 8 < 2 ^ 5 := by omega
  rw [setColumn, hcolumn]
  refine Scroll.eq_toNat _ (Nat.or_lt_two_pow (toNat_and_lt ..)
    (Nat.lt_trans hlt (by decide))) ?_ ?_ ?_ ?_ ?_
  · simp (disch := decide) [field_zero _ hlt, Bits.high5]
  all_goals simp (disch := decide) [field_eq_zero _ hlt]

/-- The high five bits of a byte, where the row of a tile lies. -/
theorem and_0xF8 (d : UInt8) : (d.toNat &&& 0xF8) <<< 2 = (Bits.high5 d).val <<< 5 := by
  have hd := toNat_and_lt_byte d 0xF8
  have hlow : field 0 3 (d.toNat &&& 0xF8) = 0 := field_drop _ (by decide)
  have hhigh : field 3 5 (d.toNat &&& 0xF8) = field 3 5 d.toNat := field_keep _ (by decide)
  have := d.toNat_lt
  simp only [field] at hlow hhigh
  simp only [Nat.shiftLeft_eq, Bits.high5]
  omega

theorem setRow_toNat (d : UInt8) :
    setRow t.toNat d =
      ({ t with fineY := Bits.low3 d, coarseY := Bits.high5 d } : Scroll).toNat := by
  have hcoarse := (Bits.high5 d).isLt
  have hfineWord : (d.toNat &&& 7) <<< 12 < 2 ^ 15 := by
    have : d.toNat &&& 7 < 2 ^ 3 := Nat.and_lt_two_pow _ (by decide)
    rw [Nat.shiftLeft_eq]
    omega
  have hcoarseWord : (Bits.high5 d).val <<< 5 < 2 ^ 15 := by
    rw [Nat.shiftLeft_eq]
    omega
  have hrow : field 0 5 (Bits.high5 d).val = Bits.high5 d := field_zero _ hcoarse
  have hfine : field 0 3 d.toNat = Bits.low3 d := congrArg (· % 8) (Nat.div_one _)
  rw [setRow, and_0xF8]
  refine Scroll.eq_toNat _ (Nat.or_lt_two_pow (Nat.or_lt_two_pow (toNat_and_lt ..) hfineWord)
    hcoarseWord) ?_ ?_ ?_ ?_ ?_
  · simp (disch := decide)
  · simp (disch := decide) [hrow]
  · simp (disch := decide) [field_eq_zero _ (k := 5) hcoarse]
  · simp (disch := decide) [field_eq_zero _ (k := 5) hcoarse]
  · simp (disch := decide) [field_eq_zero _ (k := 5) hcoarse, hfine]

theorem setHigh_toNat (d : UInt8) :
    setHigh t.toNat d = (Scroll.ofNat (d.toNat % 64 * 256 + t.toNat % 256)).toNat := by
  have hd := d.toNat_lt
  have hhigh : (d.toNat &&& 0x3F) <<< 8 < 2 ^ 15 := by
    have : d.toNat &&& 0x3F < 2 ^ 6 := Nat.and_lt_two_pow _ (by decide)
    rw [Nat.shiftLeft_eq]
    omega
  have hword : setHigh t.toNat d < 2 ^ 15 := Nat.or_lt_two_pow (toNat_and_lt ..) hhigh
  have hlow : field 0 8 (setHigh t.toNat d) = field 0 8 t.toNat := by
    simp (disch := decide) [setHigh]
  have hmiddle : field 8 6 (setHigh t.toNat d) = field 0 6 d.toNat := by
    simp (disch := decide) [setHigh]
  have htop : field 14 1 (setHigh t.toNat d) = 0 := by
    simp (disch := decide) [setHigh]
  rw [Scroll.toNat_ofNat]
  simp only [field] at hlow hmiddle htop
  omega

theorem setLow_toNat (d : UInt8) :
    setLow t.toNat d = (Scroll.ofNat (t.toNat / 256 * 256 + d.toNat)).toNat := by
  have ht := t.toNat_lt
  have hd := d.toNat_lt
  have hword : setLow t.toNat d < 2 ^ 15 :=
    Nat.or_lt_two_pow (toNat_and_lt ..) (Nat.lt_trans hd (by decide))
  have hlow : field 0 8 (setLow t.toNat d) = field 0 8 d.toNat := by
    simp (disch := decide) [setLow]
  have hhigh : field 8 8 (setLow t.toNat d) = field 8 8 t.toNat := by
    simp (disch := decide) [setLow, field_eq_zero _ hd]
  rw [Scroll.toNat_ofNat]
  simp only [field] at hlow hhigh
  omega

end Word

end Nes.Ppu
