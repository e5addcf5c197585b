import Nes.Ppu.Tick
import Mathlib.Data.Nat.Bitwise

/-!
# The plane of the nametables

The four nametables are a plane of 512 by 480 pixels, which goes on at the other side where it ends.
A `Scene` is what the pixels of the plane are made of: the nametables with their wiring, the
patterns, and the colours.  `Scene.colour` looks a pixel of the picture up in the plane, with no
shift register and no order of fetches.

`Scroll.atTile` is the position that the picture unit has when it fetches a given tile of a given
line of the plane; moving such a position on by a tile or by a line moves it on in the plane
(`Scroll.nextTile_atTile`, `Scroll.nextRow_atTile`), and what lies at its addresses are the tile and
the attributes of the plane (`Scene.readMemory_tileAddr`, `Scene.readMemory_attributeAddr`).
-/

namespace Nes.Ppu

/-- What a picture of the background is made of. -/
structure Scene where
  /-- Nametables. -/
  vram : Vector UInt8 0x1000
  /-- The wiring of the nametables. -/
  mirroring : Mirroring
  /-- The patterns. -/
  chr : UInt16 → UInt8
  /-- Palette memory. -/
  palette : Vector UInt8 32
  /-- The control register, which says where the patterns of the background start. -/
  control : Control
  /-- The mask register. -/
  mask : Mask

namespace Scene

variable (s : Scene)

/-- The number of the nametable in which a pixel of the plane lies. -/
def table (X Y : Nat) : Nat := Y % 480 / 240 * 2 + X % 512 / 256

/-- A byte of the nametable in which a pixel of the plane lies. -/
def nametableByte (X Y offset : Nat) : UInt8 :=
  s.vram.getD (s.mirroring.page (table X Y) * 0x400 + offset) 0

/-- The number of the tile in which a pixel lies: 30 rows of 32 tiles to a table. -/
def tile (X Y : Nat) : UInt8 := s.nametableByte X Y (Y % 240 / 8 * 32 + X % 256 / 8)

/-- The palette of the tile in which a pixel lies: two bits of the byte for four by four tiles, by
the quarter in which the tile lies. -/
def tilePalette (X Y : Nat) : Nat :=
  let v := s.nametableByte X Y (0x3C0 + Y % 240 / 32 * 8 + X % 256 / 32)
  v.toNat / 2 ^ (4 * (Y % 240 / 16 % 2) + 2 * (X % 256 / 16 % 2)) % 4

/-- The low bits of the row of the tile in which a pixel lies. -/
def rowLow (X Y : Nat) : UInt8 :=
  s.chr (UInt16.ofNat (s.control.backgroundTable + (s.tile X Y).toNat * 16 + Y % 8))

/-- The high bits of the row of the tile in which a pixel lies. -/
def rowHigh (X Y : Nat) : UInt8 :=
  s.chr (UInt16.ofNat (s.control.backgroundTable + (s.tile X Y).toNat * 16 + Y % 8 + 8))

/-- The pixel of the tile. -/
def pixel (X Y : Nat) : Nat := (Tile.pixel (s.rowLow X Y) (s.rowHigh X Y) (X % 8)).toNat

/-- The byte of palette memory behind the pixel of the plane that is seen in a column of the
picture. -/
def entry (X Y column : Nat) : UInt8 :=
  if s.mask.showsBackground column = false ∨ s.pixel X Y = 0 then s.palette[0]
  else s.palette.getD (4 * s.tilePalette X Y + s.pixel X Y) 0

/-- The colour of the pixel of the plane that is seen in a column of the picture. -/
def colour (X Y column : Nat) : UInt32 := rgb (s.entry X Y column) s.mask.greyscale

end Scene

/-- The scene that a picture unit sees on a cartridge. -/
def scene {γ : Type} [PictureBus γ] (p : Ppu) (cart : γ) : Scene where
  vram := p.vram
  mirroring := PictureBus.mirroring cart
  chr := PictureBus.chrRead cart
  palette := p.palette
  control := p.control
  mask := p.mask

namespace Scene

variable (s : Scene) {j : Nat} (k Y : Nat)

theorem nametableByte_add (hj : j < 8) (offset : Nat) :
    s.nametableByte (8 * k + j) Y offset = s.nametableByte (8 * k) Y offset := by
  have : table (8 * k + j) Y = table (8 * k) Y := by simp only [table]; omega
  rw [nametableByte, nametableByte, this]

/-- The eight pixels of a row belong to one tile. -/
theorem tile_add (hj : j < 8) : s.tile (8 * k + j) Y = s.tile (8 * k) Y := by
  rw [tile, tile, nametableByte_add s k Y hj,
    show (8 * k + j) % 256 / 8 = 8 * k % 256 / 8 by omega]

theorem tilePalette_add (hj : j < 8) : s.tilePalette (8 * k + j) Y = s.tilePalette (8 * k) Y := by
  simp only [tilePalette, nametableByte_add s k Y hj,
    show (8 * k + j) % 256 / 32 = 8 * k % 256 / 32 by omega,
    show (8 * k + j) % 256 / 16 = 8 * k % 256 / 16 by omega]

theorem rowLow_add (hj : j < 8) : s.rowLow (8 * k + j) Y = s.rowLow (8 * k) Y := by
  rw [rowLow, rowLow, tile_add s k Y hj]

theorem rowHigh_add (hj : j < 8) : s.rowHigh (8 * k + j) Y = s.rowHigh (8 * k) Y := by
  rw [rowHigh, rowHigh, tile_add s k Y hj]

end Scene

namespace Scroll

/-- A name table is 32 tiles wide. -/
theorem column_lt (k : Nat) : k % 32 < 32 := Nat.mod_lt k (by decide)

/-- The position in the plane of a column of tiles and a line of pixels. -/
def atTile (k Y : Nat) : Scroll where
  coarseX := ⟨k % 32, column_lt k⟩
  coarseY := ⟨Y % 240 / 8, by omega⟩
  tableX := k / 32 % 2 == 1
  tableY := Y / 240 % 2 == 1
  fineY := ⟨Y % 8, Nat.mod_lt _ (by decide)⟩

theorem odd_succ (n : Nat) : ((n + 1) % 2 == 1) = !(n % 2 == 1) := by
  rcases Nat.mod_two_eq_zero_or_one n with h | h
  · rw [h, Nat.succ_mod_two_eq_one_iff.2 h]; rfl
  · rw [h, Nat.succ_mod_two_eq_zero_iff.2 h]; rfl

theorem nextTile_atTile (k Y : Nat) : (atTile k Y).nextTile = atTile (k + 1) Y := by
  by_cases h : k % 32 = 31
  · have hx : (k + 1) % 32 = 0 := by omega
    have ht : ((k + 1) / 32 % 2 == 1) = !(k / 32 % 2 == 1) := by
      rw [show (k + 1) / 32 = k / 32 + 1 by omega, odd_succ]
    simp only [nextTile, atTile, h, hx, ht, ↓reduceIte]
    rfl
  · have hx : (k + 1) % 32 = k % 32 + 1 := by omega
    have ht : (k + 1) / 32 = k / 32 := by omega
    simp only [nextTile, atTile, h, hx, ht, ↓reduceIte, mk.injEq, and_true]
    apply Fin.ext
    rw [Fin.val_add]
    exact Nat.mod_eq_of_lt (by change k % 32 + 1 < 32; omega)

theorem nextRow_atTile (k Y : Nat) : (atTile k Y).nextRow = atTile k (Y + 1) := by
  by_cases h : Y % 8 = 7
  · have hf : (Y + 1) % 8 = 0 := by omega
    by_cases h29 : Y % 240 / 8 = 29
    · have hy : (Y + 1) % 240 / 8 = 0 := by omega
      have ht : ((Y + 1) / 240 % 2 == 1) = !(Y / 240 % 2 == 1) := by
        rw [show (Y + 1) / 240 = Y / 240 + 1 by omega, odd_succ]
      simp only [nextRow, atTile, h, hf, h29, hy, ht, ne_eq, not_true_eq_false, ↓reduceIte]
      rfl
    · have hy : (Y + 1) % 240 / 8 = Y % 240 / 8 + 1 := by omega
      have ht : (Y + 1) / 240 = Y / 240 := by omega
      simp only [nextRow, atTile, h, hf, h29, hy, ht, ne_eq, not_true_eq_false, ↓reduceIte,
        mk.injEq, true_and]
      refine ⟨Fin.ext ?_, Fin.ext rfl⟩
      rw [Fin.val_add]
      exact Nat.mod_eq_of_lt (by change Y % 240 / 8 + 1 < 32; omega)
  · have hf : (Y + 1) % 8 = Y % 8 + 1 := by omega
    have hy : (Y + 1) % 240 / 8 = Y % 240 / 8 := by omega
    have ht : (Y + 1) / 240 = Y / 240 := by omega
    simp only [nextRow, atTile, h, hf, hy, ht, ne_eq, not_false_eq_true, ↓reduceIte, mk.injEq,
      true_and]
    apply Fin.ext
    rw [Fin.val_add]
    exact Nat.mod_eq_of_lt (by change Y % 8 + 1 < 8; omega)

theorem takeX_atTile (k k' Y Y' : Nat) : (atTile k Y).takeX (atTile k' Y') = atTile k' Y := rfl

end Scroll

/-! ### What lies at the addresses of a position -/

variable {γ : Type} [PictureBus γ]

theorem nametableEntry_eq (p : Ppu) (m : Mirroring) (addr : UInt16) :
    p.nametableEntry m addr = p.vram.getD (m.vramIndex addr) 0 := by
  have h : m.vramIndex addr < p.vram.toArray.size := by
    rw [p.vram.size_toArray]
    exact m.vramIndex_lt addr
  rw [Vector.getD, Array.getD_eq_getD_getElem?, Array.getElem?_eq_getElem h]
  rfl

theorem ofNat_and_low (n : Nat) : UInt16.ofNat n &&& 0x3FFF = UInt16.ofNat (n % 0x4000) := by
  apply UInt16.toNat_inj.1
  rw [UInt16.toNat_and, UInt16.toNat_ofNat', UInt16.toNat_ofNat']
  refine (Nat.and_two_pow_sub_one_eq_mod _ 14).trans ?_
  omega

theorem low_lt_iff (n : Nat) (bound : UInt16) :
    UInt16.ofNat (n % 0x4000) < bound ↔ n % 0x4000 < bound.toNat := by
  have hlt : n % 0x4000 < UInt16.size := by
    simp only [UInt16.size]
    omega
  rw [UInt16.lt_iff_toNat_lt, UInt16.toNat_ofNat_of_lt' hlt]

theorem le_low_iff (n : Nat) (bound : UInt16) :
    bound ≤ UInt16.ofNat (n % 0x4000) ↔ bound.toNat ≤ n % 0x4000 := by
  rw [← UInt16.not_lt, low_lt_iff, Nat.not_lt]

/-- A byte of the nametables, by the number of the table and the place within it. -/
theorem readMemory_nametable (p : Ppu) (cart : γ) {table offset : Nat} (ht : table < 4)
    (ho : offset < 0x400) :
    p.readMemory cart (UInt16.ofNat (0x2000 + table * 0x400 + offset)) =
      p.vram.getD ((PictureBus.mirroring cart).page table * 0x400 + offset) 0 := by
  generalize hn : 0x2000 + table * 0x400 + offset = n
  have hlow : n % 0x4000 = n := Nat.mod_eq_of_lt (by omega)
  have hpattern : ¬UInt16.ofNat n < 0x2000 := by
    rw [← hlow, low_lt_iff]
    simp only [UInt16.reduceToNat]
    omega
  have hpalette : UInt16.ofNat n < 0x3F00 := by
    rw [← hlow, low_lt_iff]
    simp only [UInt16.reduceToNat]
    omega
  have hindex : (PictureBus.mirroring cart).vramIndex (UInt16.ofNat n) =
      (PictureBus.mirroring cart).page table * 0x400 + offset := by
    have htable : n % 0x1000 / 0x400 = table := by omega
    have hoffset : n % 0x1000 % 0x400 = offset := by omega
    have hword : (UInt16.ofNat n).toNat = n :=
      UInt16.toNat_ofNat_of_lt' (by simp only [UInt16.size]; omega)
    simp only [Mirroring.vramIndex, hword, htable, hoffset]
  rw [readMemory, ofNat_and_low, hlow, if_neg hpattern, if_pos hpalette, nametableEntry_eq, hindex]

/-- The table of a position, as a number. -/
theorem table_atTile (k Y : Nat) :
    (Scroll.atTile k Y).tableY.toNat * 2 + (Scroll.atTile k Y).tableX.toNat =
      Scene.table (8 * k) Y := by
  simp only [Scroll.atTile, Scroll.toNat_beq_one, Scene.table]
  omega

theorem readMemory_tileAddr (p : Ppu) (cart : γ) (k Y : Nat) :
    p.readMemory cart (UInt16.ofNat (Scroll.atTile k Y).tileAddr) =
      (p.scene cart).tile (8 * k) Y := by
  have ht : Scene.table (8 * k) Y < 4 := by simp only [Scene.table]; omega
  have ho : Y % 240 / 8 * 32 + 8 * k % 256 / 8 < 0x400 := by omega
  have haddr : (Scroll.atTile k Y).tileAddr =
      0x2000 + Scene.table (8 * k) Y * 0x400 + (Y % 240 / 8 * 32 + 8 * k % 256 / 8) := by
    rw [← table_atTile, Scroll.tileAddr, Scroll.toNat]
    simp only [Scroll.atTile, Scroll.toNat_beq_one]
    omega
  rw [haddr, readMemory_nametable p cart ht ho]
  rfl

theorem readMemory_attributeAddr (p : Ppu) (cart : γ) (k Y : Nat) :
    p.readMemory cart (UInt16.ofNat (Scroll.atTile k Y).attributeAddr) =
      (p.scene cart).nametableByte (8 * k) Y (0x3C0 + Y % 240 / 32 * 8 + 8 * k % 256 / 32) := by
  have ht : Scene.table (8 * k) Y < 4 := by simp only [Scene.table]; omega
  have ho : 0x3C0 + Y % 240 / 32 * 8 + 8 * k % 256 / 32 < 0x400 := by omega
  have haddr : (Scroll.atTile k Y).attributeAddr =
      0x2000 + Scene.table (8 * k) Y * 0x400 + (0x3C0 + Y % 240 / 32 * 8 + 8 * k % 256 / 32) := by
    rw [← table_atTile, Scroll.attributeAddr]
    simp only [Scroll.atTile, Scroll.toNat_beq_one]
    omega
  rw [haddr, readMemory_nametable p cart ht ho]
  rfl

/-- The palette of a tile, as it is fetched. -/
theorem attributeBits_atTile (p : Ppu) (cart : γ) (k Y : Nat) :
    ((Scroll.atTile k Y).attributeBits (p.readMemory cart
      (UInt16.ofNat (Scroll.atTile k Y).attributeAddr))).toNat =
        (p.scene cart).tilePalette (8 * k) Y := by
  rw [readMemory_attributeAddr]
  have hshift : 4 * (Y % 240 / 16 % 2) + 2 * (8 * k % 256 / 16 % 2) < 8 := by omega
  have e1 : Y % 240 / 8 / 2 % 2 = Y % 240 / 16 % 2 := by omega
  have e2 : k % 32 / 2 % 2 = 8 * k % 256 / 16 % 2 := by omega
  simp only [Scroll.attributeBits, Scroll.atTile, Scene.tilePalette, e1, e2]
  rw [UInt8.toNat_and, UInt8.toNat_shiftRight, UInt8.toNat_ofNat_of_lt' (by
    simp only [UInt8.size]; omega), Nat.mod_eq_of_lt hshift, Nat.shiftRight_eq_div_pow]
  exact Nat.and_two_pow_sub_one_eq_mod _ 2

end Nes.Ppu
