import Nes.Bits

/-!
# Scroll positions

The picture unit has two address registers of 15 bits.  While it draws, each is a position in the
four nametables: a tile (`coarseX`, `coarseY`), the table it lies in (`tableX`, `tableY`) and a row
of pixels within it (`fineY`).  `Scroll.toNat` and `Scroll.ofNat` pass between the two readings,
without loss (`Scroll.ofNat_toNat`, `Scroll.toNat_ofNat`).
-/

namespace Nes.Ppu

/-- A position in the nametables, which is also an address. -/
structure Scroll where
  /-- The column of the tile. -/
  coarseX : Fin 32 := 0
  /-- The row of the tile; rows 30 and 31 hold attributes. -/
  coarseY : Fin 32 := 0
  /-- The right tables. -/
  tableX : Bool := false
  /-- The lower tables. -/
  tableY : Bool := false
  /-- The row of pixels within the tile. -/
  fineY : Fin 8 := 0
deriving DecidableEq, Repr, Inhabited

namespace Scroll

/-- The position as an address. -/
def toNat (s : Scroll) : Nat :=
  s.fineY.val * 0x1000 + s.tableY.toNat * 0x800 + s.tableX.toNat * 0x400 + s.coarseY.val * 32 +
    s.coarseX.val

/-- The position that the low 15 bits of a number stand for. -/
def ofNat (n : Nat) : Scroll where
  coarseX := ⟨n % 32, Nat.mod_lt _ (by decide)⟩
  coarseY := ⟨n / 32 % 32, Nat.mod_lt _ (by decide)⟩
  tableX := n / 0x400 % 2 == 1
  tableY := n / 0x800 % 2 == 1
  fineY := ⟨n / 0x1000 % 8, Nat.mod_lt _ (by decide)⟩

theorem toNat_lt (s : Scroll) : s.toNat < 0x8000 := by
  have := s.coarseX.isLt
  have := s.coarseY.isLt
  have := s.fineY.isLt
  have := s.tableX.toNat_lt
  have := s.tableY.toNat_lt
  simp only [toNat]
  omega

theorem toNat_beq_one (n : Nat) : (n % 2 == 1).toNat = n % 2 := by
  rcases Nat.mod_two_eq_zero_or_one n with h | h <;> simp [h]

theorem toNat_ofNat (n : Nat) : (ofNat n).toNat = n % 0x8000 := by
  simp only [toNat, ofNat, toNat_beq_one]
  omega

@[simp] theorem ofNat_toNat (s : Scroll) : ofNat s.toNat = s := by
  rcases s with ⟨⟨x, hx⟩, ⟨y, hy⟩, tx, ty, ⟨f, hf⟩⟩
  cases tx <;> cases ty <;>
    simp only [toNat, ofNat, Bool.toNat_true, Bool.toNat_false, mk.injEq, Fin.mk.injEq,
      beq_iff_eq, beq_eq_false_iff_ne] <;>
    omega

/-- The address of the position's tile number. -/
def tileAddr (s : Scroll) : Nat := 0x2000 + s.toNat % 0x1000

/-- The address of the position's attribute byte. -/
def attributeAddr (s : Scroll) : Nat :=
  0x23C0 + s.tableY.toNat * 0x800 + s.tableX.toNat * 0x400 + s.coarseY.val / 4 * 8 +
    s.coarseX.val / 4

/-- The two bits of an attribute byte that belong to the position's tile. -/
def attributeBits (s : Scroll) (v : UInt8) : UInt8 :=
  let lower := s.coarseY.val / 2 % 2
  let right := s.coarseX.val / 2 % 2
  v >>> UInt8.ofNat (4 * lower + 2 * right) &&& 3

/-- One tile to the right, from the end of a table to the start of the one beside it. -/
def nextTile (s : Scroll) : Scroll :=
  if s.coarseX.val = 31 then { s with coarseX := 0, tableX := !s.tableX }
  else { s with coarseX := s.coarseX + 1 }

/-- One row of pixels down.  Row 29 of tiles is followed by row 0 of the table below, but a position
that was set to rows 30 and 31 wraps without leaving its table. -/
def nextRow (s : Scroll) : Scroll :=
  if s.fineY.val ≠ 7 then { s with fineY := s.fineY + 1 }
  else if s.coarseY.val = 29 then { s with fineY := 0, coarseY := 0, tableY := !s.tableY }
  else { s with fineY := 0, coarseY := s.coarseY + 1 }

/-- Takes the column of another position. -/
def takeX (s t : Scroll) : Scroll := { s with coarseX := t.coarseX, tableX := t.tableX }

/-- Takes the row of another position. -/
def takeY (s t : Scroll) : Scroll :=
  { s with coarseY := t.coarseY, tableY := t.tableY, fineY := t.fineY }

/-- The position after an access, `n` cells further on. -/
def advance (s : Scroll) (n : Nat) : Scroll := ofNat (s.toNat + n)

end Scroll

end Nes.Ppu
