/-!
# Nametable mirroring

The picture unit addresses four nametables of 1 KiB.  A cartridge decides which of them share
memory: `Mirroring.vramIndex` maps an address to a cell of 4 KiB of nametable memory.
-/

namespace Nes

/-- The ways in which the four nametables share memory. -/
inductive Mirroring
  /-- The upper two tables are one, and the lower two are one. -/
  | horizontal
  /-- The left two tables are one, and the right two are one. -/
  | vertical
  /-- All four tables are the first kilobyte. -/
  | oneScreenLower
  /-- All four tables are the second kilobyte. -/
  | oneScreenUpper
  /-- The cartridge brings memory of its own and all four tables differ. -/
  | fourScreen
deriving DecidableEq, Repr, Inhabited

namespace Mirroring

/-- The kilobyte of nametable memory that holds each of the four tables. -/
def page (m : Mirroring) (table : Nat) : Nat :=
  match m with
  | horizontal => table / 2
  | vertical => table % 2
  | oneScreenLower => 0
  | oneScreenUpper => 1
  | fourScreen => table

/-- The cell of nametable memory behind an address from `$2000` to `$3EFF`. -/
def vramIndex (m : Mirroring) (addr : UInt16) : Nat :=
  let offset := addr.toNat % 0x1000
  m.page (offset / 0x400) * 0x400 + offset % 0x400

theorem page_lt (m : Mirroring) {table : Nat} (h : table < 4) : m.page table < 4 := by
  cases m <;> simp only [page] <;> omega

theorem vramIndex_lt (m : Mirroring) (addr : UInt16) : m.vramIndex addr < 0x1000 := by
  have : m.page (addr.toNat % 0x1000 / 0x400) < 4 := m.page_lt (by omega)
  simp only [vramIndex]
  omega

end Mirroring

end Nes
