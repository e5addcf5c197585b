import Nes.Board.Basic
import Nes.Ppu.PatternTable
import Nes.Proofs.Ppu.Foreground

/-!
# The pixels of a pattern table

A picture of a pattern table is put together from rows of tiles, and these from the rows of each
tile.  All of these are lists over numbers that count up, and such lists in lists are one list whose
places are divided (`flatMap_range_map`).  So the tables and the picture of both have their pixels
where the grid of 16 by 16 tiles has them (`flatten_patternTable`, `renderTables_eq`).

A pixel of a tile is read in the same way for a sprite that shows the tile
(`pixel_drawSprite`).  `viewer_exact` puts this together.
-/

namespace Nes.Ppu

/-! ### Lists in lists -/

section

variable {α β : Type}

/-- Rows of `n` places each, one after another. -/
theorem flatMap_range_map (f : Nat → Nat → α) (m n : Nat) :
    ((List.range m).flatMap fun i => (List.range n).map (f i)) =
      (List.range (m * n)).map fun k => f (k / n) (k % n) := by
  induction m with
  | zero => rw [Nat.zero_mul]; rfl
  | succ m ih =>
    -- The places of the last row are those from `m * n` on, which division takes apart again.
    have hlast : (List.range n).map (f m) =
        ((List.range n).map (m * n + ·)).map fun k => f (k / n) (k % n) := by
      rw [List.map_map]
      refine List.map_congr_left fun j hj => ?_
      have hlt : j < n := List.mem_range.1 hj
      have hpos : 0 < n := Nat.zero_lt_of_lt hlt
      simp only [Function.comp_apply]
      rw [Nat.add_comm, Nat.add_mul_div_right _ _ hpos, Nat.add_mul_mod_self_right,
        Nat.div_eq_of_lt hlt, Nat.mod_eq_of_lt hlt, Nat.zero_add]
    rw [List.range_succ, List.flatMap_append, ih, List.flatMap_singleton, hlast, Nat.succ_mul,
      List.range_add, List.map_append]

/-- Two pictures side by side. -/
theorem zipWith_append_range (f g : Nat → List α) (n : Nat) :
    List.zipWith (· ++ ·) ((List.range n).map f) ((List.range n).map g) =
      (List.range n).map fun y => f y ++ g y := by
  rw [List.zipWith_map, List.zipWith_self]

/-- Pictures of `n` rows side by side. -/
theorem foldr_zipWith_append (f : β → Nat → List α) (cells : List β) (n : Nat) :
    (cells.map fun c => (List.range n).map (f c)).foldr (List.zipWith (· ++ ·))
        (List.replicate n []) =
      (List.range n).map fun y => cells.flatMap fun c => f c y := by
  induction cells with
  | nil =>
    change List.replicate n [] = (List.range n).map fun _ => []
    rw [List.map_const', List.length_range]
  | cons c cells ih =>
    rw [List.map_cons, List.foldr_cons, ih, zipWith_append_range]
    rfl

end

/-! ### The pixels of the tables -/

variable {γ : Type} [PictureBus γ] (cart : γ)

/-- A pixel of a tile of a table. -/
def tilePixel (table tile row column : Nat) : UInt8 :=
  .ofNat (patternPixel (PictureBus.chrRead cart) (0x1000 * (table % 2)) tile row column)

theorem patternPixel_lt (chr : UInt16 → UInt8) (table tile row column : Nat) :
    patternPixel chr table tile row column < 4 := by
  unfold patternPixel
  dsimp only
  cases Nat.testBit _ _ <;> cases Nat.testBit _ _ <;> decide

theorem toNat_tilePixel (table tile row column : Nat) :
    (tilePixel cart table tile row column).toNat =
      patternPixel (PictureBus.chrRead cart) (0x1000 * (table % 2)) tile row column := by
  have hlt := patternPixel_lt (PictureBus.chrRead cart) (0x1000 * (table % 2)) tile row column
  exact UInt8.toNat_ofNat_of_lt' (hlt.trans (by decide))

theorem getD_tileBytes (table index : Nat) {k : Nat} (hk : k < 16) :
    (tileBytes cart table index).getD k 0 =
      PictureBus.chrRead cart (UInt16.ofNat (table % 2 * 0x1000 + index * 16 + k)) := by
  rw [tileBytes, List.getD_eq_getElem?_getD, List.getElem?_map,
    List.getElem?_range (show k < Tile.length from hk)]
  rfl

theorem decodeTile_tileBytes (table index : Nat) :
    decodeTile (tileBytes cart table index) =
      (List.range 8).map fun row => (List.range 8).map (tilePixel cart table index row) := by
  rw [decodeTile]
  refine List.map_congr_left fun row hrow => List.map_congr_left fun column _ => ?_
  have hlt : row < 8 := List.mem_range.1 hrow
  rw [getD_tileBytes cart table index (by omega), getD_tileBytes cart table index (by omega),
    ← Nat.add_assoc]
  refine UInt8.toNat_inj.1 ?_
  rw [Tile.toNat_pixel, toNat_tilePixel, patternPixel, Nat.mul_comm 0x1000]

/-- A row of tiles. -/
theorem tileRow_eq (table i : Nat) :
    tileRow cart table i =
      (List.range 8).map fun row =>
        (List.range 128).map fun x => tilePixel cart table (i * 16 + x / 8) row (x % 8) := by
  simp only [tileRow, decodeTile_tileBytes, foldr_zipWith_append]
  refine List.map_congr_left fun row _ => ?_
  exact flatMap_range_map (fun c => tilePixel cart table (i * 16 + c) row) 16 8

/-- The pixel in a row and a column of a table. -/
def tablePixel (table y x : Nat) : UInt8 :=
  tilePixel cart table (y / 8 * 16 + x / 8) (y % 8) (x % 8)

/-- The number of that pixel: of the grid of 16 by 16 tiles, that of the tile in which the row and
the column lie. -/
def tableValue (chr : UInt16 → UInt8) (table x y : Nat) : Nat :=
  patternPixel chr (0x1000 * table) (16 * (y / 8) + x / 8) (y % 8) (x % 8)

theorem tableValue_lt (chr : UInt16 → UInt8) (table x y : Nat) : tableValue chr table x y < 4 :=
  patternPixel_lt ..

theorem toNat_tablePixel {table : Nat} (htable : table < 2) (x y : Nat) :
    (tablePixel cart table y x).toNat = tableValue (PictureBus.chrRead cart) table x y := by
  rw [tablePixel, toNat_tilePixel, Nat.mod_eq_of_lt htable, Nat.mul_comm _ 16]
  rfl

/-- A table, row by row. -/
theorem patternTable_eq (table : Nat) :
    patternTable cart table =
      (List.range 128).map fun y => (List.range 128).map (tablePixel cart table y) := by
  simp only [patternTable, funext (tileRow_eq cart table)]
  exact flatMap_range_map (fun i row =>
    (List.range 128).map fun x => tilePixel cart table (i * 16 + x / 8) row (x % 8)) 16 8

theorem flatten_patternTable (table : Nat) :
    (patternTable cart table).flatten =
      (List.range (128 * 128)).map fun k => tablePixel cart table (k / 128) (k % 128) := by
  rw [patternTable_eq, ← List.flatMap_def, flatMap_range_map]

/-- Both tables, row by row. -/
theorem renderTables_eq (palette : List UInt32) :
    renderTables cart palette =
      (List.range (128 * 256)).map fun k =>
        colourOf palette (tablePixel cart (k % 256 / 128) (k / 256) (k % 256 % 128)) := by
  have hrow (y : Nat) :
      (List.range 128).map (tablePixel cart 0 y) ++ (List.range 128).map (tablePixel cart 1 y) =
        (List.range (2 * 128)).map fun k => tablePixel cart (k / 128) y (k % 128) := by
    rw [← flatMap_range_map fun table => tablePixel cart table y]
    change _ = (List.range 128).map (tablePixel cart 0 y) ++
      ((List.range 128).map (tablePixel cart 1 y) ++ [])
    rw [List.append_nil]
  rw [renderTables, patternTable_eq, patternTable_eq, zipWith_append_range, List.flatMap_map]
  simp only [hrow, List.map_map]
  exact flatMap_range_map (fun y k => colourOf palette (tablePixel cart (k / 128) y (k % 128)))
    128 256

theorem getElem?_patternTable (table : Nat) {x y : Nat} (hx : x < 128) (hy : y < 128) :
    (patternTable cart table).flatten[128 * y + x]? = some (tablePixel cart table y x) := by
  rw [flatten_patternTable, List.getElem?_map, List.getElem?_range (by omega),
    Option.map_some, show (128 * y + x) / 128 = y by omega, show (128 * y + x) % 128 = x by omega]

theorem getElem?_renderTables (palette : List UInt32) {table x y : Nat} (htable : table < 2)
    (hx : x < 128) (hy : y < 128) :
    (renderTables cart palette)[256 * y + 128 * table + x]? =
      some (colourOf palette (tablePixel cart table y x)) := by
  have hplace : (256 * y + 128 * table + x) % 256 = 128 * table + x := by omega
  rw [renderTables_eq, List.getElem?_map, List.getElem?_range (by omega), Option.map_some, hplace,
    show (256 * y + 128 * table + x) / 256 = y by omega,
    show (128 * table + x) / 128 = table by omega, show (128 * table + x) % 128 = x by omega]

/-- Where a pixel of a tile is in its table. -/
theorem getElem?_tile (table : Nat) {tile row column : Nat} (htile : tile < 256) (hrow : row < 8)
    (hcolumn : column < 8) :
    (patternTable cart table).flatten[128 * (8 * (tile / 16) + row) +
        (8 * (tile % 16) + column)]? =
      some (tilePixel cart table tile row column) := by
  rw [getElem?_patternTable cart table (by omega) (by omega), tablePixel,
    show (8 * (tile / 16) + row) / 8 * 16 + (8 * (tile % 16) + column) / 8 = tile by omega,
    show (8 * (tile / 16) + row) % 8 = row by omega,
    show (8 * (tile % 16) + column) % 8 = column by omega]

/-- The colour of a pixel is one of the four. -/
theorem colourOf_eq (c0 c1 c2 c3 : UInt32) {pixel : UInt8} (h : pixel.toNat < 4) :
    some (colourOf [c0, c1, c2, c3] pixel) = [c0, c1, c2, c3][pixel.toNat]? := by
  rw [colourOf, Nat.mod_eq_of_lt h, List.getD_eq_getElem?_getD]
  exact (List.getElem?_eq_getElem (l := [c0, c1, c2, c3]) h).symm ▸ rfl

/-! ### The pixels of a sprite -/

namespace Sprite

variable (s : Sprite) (control : Control)

/-- The table in which the tiles of a sprite lie. -/
def table : Nat :=
  if control.spriteHeight = 8 then control.spriteTable / 0x1000 else s.tile.toNat % 2

/-- The tile in which a row of a sprite lies. -/
def tileOf (row : Nat) : Nat :=
  if control.spriteHeight = 8 then s.tile.toNat else s.tile.toNat / 2 * 2 + row / 8

theorem table_lt : s.table control < 2 := by
  unfold table Control.spriteTable
  split_ifs <;> omega

theorem tileOf_lt {row : Nat} (h : row < control.spriteHeight) : s.tileOf control row < 256 := by
  have htile := s.tile.toNat_lt
  unfold tileOf
  rcases control.spriteHeight_cases with h8 | h16
  · rwa [if_pos h8]
  · rw [if_neg (by omega)]
    omega

/-- The pixel of a sprite without flips is that of a tile. -/
theorem pixelAt_of_unflipped (chr : UInt16 → UInt8) (hx : s.flippedX = false)
    (hy : s.flippedY = false) {row : Nat} (hrow : row < control.spriteHeight) (column : Nat) :
    s.pixelAt chr control row column =
      patternPixel chr (0x1000 * s.table control) (s.tileOf control row) (row % 8) column := by
  unfold pixelAt table tileOf
  simp only [hx, hy, Bool.false_eq_true, if_false]
  split
  · next h8 =>
    have htable : 0x1000 * (control.spriteTable / 0x1000) = control.spriteTable := by
      unfold Control.spriteTable
      split <;> rfl
    rw [htable, Nat.mod_eq_of_lt (h8 ▸ hrow)]
  · rw [Nat.mul_comm]

end Sprite

/-- What a sprite puts into a column that is free. -/
theorem pixel_drawSprite (p : Ppu) (shown : SpriteLine) (i : Fin 64) {column : Nat}
    (hcolumn : column < 8) (h : (Sprite.ofMemory p.sprites i).x.toNat + column < 256)
    (hfree : shown[(Sprite.ofMemory p.sprites i).x.toNat + column].pixel = 0) :
    (p.drawSprite cart shown i)[(Sprite.ofMemory p.sprites i).x.toNat + column].pixel.toNat =
      (Sprite.ofMemory p.sprites i).pixelAt (PictureBus.chrRead cart) p.control
        (p.beam.line - (Sprite.ofMemory p.sprites i).y.toNat) column := by
  rw [drawSprite, SpriteLine.getElem_paint _ _ _ _ shown h, if_pos hfree, SpriteLine.show?,
    Nat.add_sub_cancel_left, ← Sprite.toNat_pixel_patternAddr]
  split
  · rfl
  · next hhidden =>
    have hzero := not_not.1 fun hne => hhidden ⟨Nat.le_add_right _ _, by omega, hne⟩
    rw [Option.getD_none, hfree, hzero]

/-- **The pictures of the pattern tables.**  For any cartridge:

* a table has 128 by 128 pixels of at most 3, and the one in column `x` and row `y` is that of the
  tile `16 * (y / 8) + x / 8` as the cartridge shows it now;
* the picture of both tables has 256 by 128 pixels, and the second table stands to the right of the
  first one, in the colours of a palette of four;
* a sprite without flips that is drawn where nothing shows yet has the pixels that the table has at
  its tile. -/
theorem viewer_exact (cart : γ) (c0 c1 c2 c3 : UInt32) :
    (∀ t : Fin 2,
      (patternTable cart t).flatten.length = 128 * 128 ∧
      (∀ pixel ∈ (patternTable cart t).flatten, pixel ≤ 3) ∧
      ∀ x y : Fin 128,
        (patternTable cart t).flatten[128 * y.val + x.val]? =
          some (.ofNat (tableValue (PictureBus.chrRead cart) t x y))) ∧
    ((renderTables cart [c0, c1, c2, c3]).length = 2 * 128 * 128 ∧
      ∀ (t : Fin 2) (x y : Fin 128),
        (renderTables cart [c0, c1, c2, c3])[256 * y.val + 128 * t.val + x.val]? =
          [c0, c1, c2, c3][tableValue (PictureBus.chrRead cart) t x y]?) ∧
    ∀ (p : Ppu) (i : Fin 64) (shown : SpriteLine) (column : Fin 8),
      let s := Sprite.ofMemory p.sprites i
      let row := p.beam.line - s.y.toNat
      let tile := s.tileOf p.control row
      s.coversLine p.control.spriteHeight p.beam.line = true →
      s.flippedX = false → s.flippedY = false →
      ∀ h : s.x.toNat + column.val < 256, shown[s.x.toNat + column.val].pixel = 0 →
        (patternTable cart (s.table p.control)).flatten[
            128 * (8 * (tile / 16) + row % 8) + (8 * (tile % 16) + column.val)]? =
          some (p.drawSprite cart shown i)[s.x.toNat + column.val].pixel := by
  refine ⟨fun t => ⟨?_, fun pixel hpixel => ?_, fun x y => ?_⟩, ⟨?_, fun t x y => ?_⟩, ?_⟩
  · rw [flatten_patternTable, List.length_map, List.length_range]
  · rw [flatten_patternTable] at hpixel
    obtain ⟨k, -, rfl⟩ := List.mem_map.1 hpixel
    rw [UInt8.le_iff_toNat_le, toNat_tablePixel cart t.isLt]
    exact Nat.le_of_lt_succ (tableValue_lt ..)
  · rw [getElem?_patternTable cart t x.isLt y.isLt, ← toNat_tablePixel cart t.isLt,
      UInt8.ofNat_toNat]
  · rw [renderTables_eq, List.length_map, List.length_range]
  · have hvalue := toNat_tablePixel cart t.isLt x y
    have hlt := tableValue_lt (PictureBus.chrRead cart) t x y
    rw [← hvalue] at hlt ⊢
    rw [getElem?_renderTables cart _ t.isLt x.isLt y.isLt, colourOf_eq c0 c1 c2 c3 hlt]
  · intro p i shown column s row tile hcovers hx hy h hfree
    have hrow : row < p.control.spriteHeight := by
      obtain ⟨hfirst, hlast⟩ := of_decide_eq_true hcovers
      omega
    rw [getElem?_tile cart _ (s.tileOf_lt p.control hrow) (Nat.mod_lt row (by decide)) column.isLt,
      tilePixel, Nat.mod_eq_of_lt (s.table_lt p.control),
      ← s.pixelAt_of_unflipped p.control _ hx hy hrow,
      ← pixel_drawSprite cart p shown i column.isLt h hfree, UInt8.ofNat_toNat]

/-- Where all pixels are set, they are all set in the picture and on the line of a sprite. -/
theorem viewer_exact_solid :
    let p : Ppu :=
      { powerOn with
        beam := { line := 105 }
        sprites := .ofFn fun i => if i.val = 0 then 100 else if i.val = 3 then 250 else 0 }
    let b : Board :=
      { prgRom := #[0xEA], chr := #[0xFF], chrIsRam := false, prgRam := .replicate _ 0,
        wired := .vertical, chip := .nrom }
    (renderTables b [1, 2, 3, 4])[256 * 9 + 128 * 1 + 7]? = some 4 ∧
      (p.drawSprite b .empty 0)[252].pixel = 3 := by
  intro p b
  obtain ⟨htable, ⟨-, hboth⟩, hsprite⟩ := viewer_exact b 1 2 3 4
  have hchr (addr : UInt16) : PictureBus.chrRead b addr = 0xFF := by
    have hindex : b.chrIndex addr = 0 := Nat.lt_one_iff.1 (b.chrIndex_lt addr (by decide))
    change b.chrRead addr = 0xFF
    rw [Board.chrRead, hindex]
    rfl
  have hfirst : Sprite.ofMemory p.sprites 0 = ⟨100, 0, 0, 250⟩ := by
    simp [Sprite.ofMemory, p]
  refine ⟨(hboth 1 7 9).trans ?_, ?_⟩
  · simp only [tableValue, patternPixel, hchr]
    decide
  · have hdrawn := hsprite p 0 .empty 2
    simp only [hfirst] at hdrawn
    have hpixel := hdrawn (by decide) (by decide) (by decide) (by decide)
      (by simp [SpriteLine.empty])
    have htable0 : Sprite.table ⟨100, 0, 0, 250⟩ p.control = 0 := by decide
    have htile : Sprite.tileOf ⟨100, 0, 0, 250⟩ p.control (p.beam.line - UInt8.toNat 100) = 0 := by
      decide
    have hrow : (p.beam.line - UInt8.toNat 100) % 8 = 5 := by decide
    rw [htable0, htile, hrow] at hpixel
    have hentry : (patternTable b 0).flatten[128 * 5 + 2]? = some 3 := by
      refine ((htable 0).2.2 2 5).trans ?_
      simp only [tableValue, patternPixel, hchr]
      decide
    exact (Option.some.inj (hentry.symm.trans hpixel)).symm

end Nes.Ppu
