import Nes.Proofs.Ppu.Pipeline

/-!
# What sprites show on a line

The sprites of a line are drawn one after another, each where no earlier one shows anything
(`SpriteLine.getElem_paint`).  So in every column one sees the first sprite, of those that are
drawn, whose pixel there is not zero (`Ppu.getElem_spriteLine_drawSprites`).  The first sprite of
sprite memory is drawn before all others on every line that it covers, and nothing hides it:
`Ppu.showsFirst_drawSprites` says where it is seen, in terms of the bytes that describe it.
-/

namespace Nes.Ppu

/-! ### One sprite -/

namespace SpriteLine

/-- What a sprite whose row has the two bytes `low` and `high` shows in a column. -/
def show? (s : Sprite) (isFirst : Bool) (low high : UInt8) (column : Nat) : Option SpritePixel :=
  let pixel := s.pixel low high (column - s.x.toNat)
  if s.x.toNat ≤ column ∧ column < s.x.toNat + 8 ∧ pixel ≠ 0 then
    some { pixel, palette := s.palette, behind := s.behind, isFirst }
  else none

theorem show?_eq_some_iff {s : Sprite} {isFirst : Bool} {low high : UInt8} {column : Nat}
    {e : SpritePixel} :
    show? s isFirst low high column = some e ↔
      (s.x.toNat ≤ column ∧ column < s.x.toNat + 8 ∧
        s.pixel low high (column - s.x.toNat) ≠ 0) ∧
      { pixel := s.pixel low high (column - s.x.toNat), palette := s.palette, behind := s.behind,
        isFirst } = e := by
  rw [show?, Option.ite_none_right_eq_some, Option.some_inj]

theorem pixel_of_show?_eq_some {s : Sprite} {isFirst : Bool} {low high : UInt8} {column : Nat}
    {e : SpritePixel} (h : show? s isFirst low high column = some e) :
    e.pixel ≠ 0 ∧ e.isFirst = isFirst := by
  obtain ⟨hshow, rfl⟩ := show?_eq_some_iff.1 h
  exact ⟨hshow.2.2, rfl⟩

variable (s : Sprite) (isFirst : Bool) (low high : UInt8)

/-- Where nothing shows yet, the columns of a sprite from `start` on are drawn. -/
theorem getElem_paintFrom (shown : SpriteLine) (start : Nat) {column : Nat} (h : column < 256) :
    (shown.paintFrom s isFirst low high start)[column] =
      if shown[column].pixel = 0 ∧ s.x.toNat + start ≤ column then
        (show? s isFirst low high column).getD shown[column]
      else shown[column] := by
  fun_induction paintFrom shown s isFirst low high start with
  | case1 shown start hstart hx pixel shown' ih =>
    rw [ih]
    by_cases hc : column = s.x.toNat + start
    · subst hc
      have hnot : ¬ s.x.toNat + (start + 1) ≤ s.x.toNat + start := by omega
      have hwithin : s.x.toNat ≤ s.x.toNat + start ∧ s.x.toNat + start < s.x.toNat + 8 := by omega
      have hcolumn : s.x.toNat + start - s.x.toNat = start := by omega
      rw [if_neg fun hand => hnot hand.2]
      by_cases hp : s.pixel low high start = 0 <;>
        by_cases hs : shown[s.x.toNat + start].pixel = 0 <;>
        simp [shown', show?, pixel, hcolumn, hwithin, hp, hs]
    · have hsame : shown'[column] = shown[column] := by
        simp only [shown']
        split
        · rfl
        · exact Vector.getElem_set_ne _ _ (Ne.symm hc)
      have hle : s.x.toNat + (start + 1) ≤ column ↔ s.x.toNat + start ≤ column := by omega
      rw [hsame]
      simp only [hle]
  | case2 shown start hstart hx =>
    rw [if_neg fun hand => hx (Nat.lt_of_le_of_lt hand.2 h)]
  | case3 shown start hstart =>
    split
    · next hand =>
      have hout : ¬ column < s.x.toNat + 8 := by omega
      rw [show?, if_neg fun hshow => hout hshow.2.1]
      rfl
    · rfl

/-- A sprite is drawn where no earlier one shows anything. -/
theorem getElem_paint (shown : SpriteLine) {column : Nat} (h : column < 256) :
    (shown.paint s isFirst low high)[column] =
      if shown[column].pixel = 0 then (show? s isFirst low high column).getD shown[column]
      else shown[column] := by
  rw [paint, getElem_paintFrom s isFirst low high shown 0 h]
  by_cases hx : s.x.toNat ≤ column
  · simp only [hx, Nat.add_zero, and_true]
  · have hnone : show? s isFirst low high column = none := if_neg fun hshow => hx hshow.1
    simp only [hx, Nat.add_zero, and_false, hnone, Option.getD_none, ite_self]

end SpriteLine

/-! ### The sprites of a line -/

variable {γ : Type} [PictureBus γ]

/-- What a sprite of sprite memory, whose row on the beam's line is fetched, shows in a column. -/
def entry? (p : Ppu) (cart : γ) (column : Nat) (i : Fin 64) : Option SpritePixel :=
  let s := Sprite.ofMemory p.sprites i
  let addr := s.patternAddr p.control (s.row p.control.spriteHeight p.beam.line)
  SpriteLine.show? s (i.val == 0) (PictureBus.chrRead cart (UInt16.ofNat addr))
    (PictureBus.chrRead cart (UInt16.ofNat (addr + 8))) column

theorem pixel_of_entry?_eq_some {p : Ppu} {cart : γ} {column : Nat} {i : Fin 64} {e : SpritePixel}
    (h : p.entry? cart column i = some e) : e.pixel ≠ 0 ∧ e.isFirst = (i.val == 0) :=
  SpriteLine.pixel_of_show?_eq_some h

theorem getElem_foldl_drawSprite (p : Ppu) (cart : γ) (found : List (Fin 64)) (shown : SpriteLine)
    {column : Nat} (h : column < 256) :
    (found.foldl (p.drawSprite cart) shown)[column] =
      if shown[column].pixel = 0 then
        (found.findSome? (p.entry? cart column)).getD shown[column]
      else shown[column] := by
  induction found generalizing shown with
  | nil => exact (ite_self _).symm
  | cons i found ih =>
    have hdraw : (p.drawSprite cart shown i)[column] =
        if shown[column].pixel = 0 then (p.entry? cart column i).getD shown[column]
        else shown[column] := SpriteLine.getElem_paint _ _ _ _ shown h
    rw [List.foldl_cons, ih, hdraw, List.findSome?_cons]
    by_cases hshown : shown[column].pixel = 0
    · cases he : p.entry? cart column i with
      | none => simp only [hshown, if_true, Option.getD_none]
      | some e =>
        simp only [hshown, if_true, Option.getD_some, (pixel_of_entry?_eq_some he).1, if_false]
    · simp only [hshown, if_false]

/-- **In every column one sees the first sprite that shows something there,** of the first eight
that cover the line. -/
theorem getElem_spriteLine_drawSprites (p : Ppu) (cart : γ) {column : Nat} (h : column < 256) :
    (p.drawSprites cart).spriteLine[column] =
      (((spritesOn p.sprites p.control.spriteHeight p.beam.line).take 8).findSome?
        (p.entry? cart column)).getD {} := by
  have hempty : SpriteLine.empty[column] = {} := Vector.getElem_replicate h
  simp only [drawSprites]
  rw [getElem_foldl_drawSprite p cart _ _ h, hempty]
  exact if_pos rfl

/-! ### The first sprite -/

/-- A pixel of a tile of the pattern table that starts at `table`. -/
def patternPixel (chr : UInt16 → UInt8) (table tile row column : Nat) : Nat :=
  let addr := table + tile * 16 + row
  2 * ((chr (UInt16.ofNat (addr + 8))).toNat.testBit (7 - column)).toNat +
    ((chr (UInt16.ofNat addr)).toNat.testBit (7 - column)).toNat

namespace Sprite

variable (s : Sprite) (chr : UInt16 → UInt8) (control : Control)

/-- The pixel that a sprite shows in a row and a column of the square, or of the two squares one
above the other, that it takes on the picture. -/
def pixelAt (row column : Nat) : Nat :=
  let height := control.spriteHeight
  let row := if s.flippedY then height - 1 - row else row
  let column := if s.flippedX then 7 - column else column
  if height = 8 then patternPixel chr control.spriteTable s.tile.toNat row column
  else
    patternPixel chr (s.tile.toNat % 2 * 0x1000) (s.tile.toNat / 2 * 2 + row / 8) (row % 8) column

/-- A sprite covers a pixel of the picture with one that shows. -/
def Covers (px py : Nat) : Prop :=
  ∃ row < control.spriteHeight, ∃ column < 8,
    py = s.y.toNat + 1 + row ∧ px = s.x.toNat + column ∧ s.pixelAt chr control row column ≠ 0

/-- The pixel of a row that is fetched for a line. -/
theorem toNat_pixel_patternAddr (line column : Nat) :
    let addr := s.patternAddr control (s.row control.spriteHeight line)
    (s.pixel (chr (UInt16.ofNat addr)) (chr (UInt16.ofNat (addr + 8))) column).toNat =
      s.pixelAt chr control (line - s.y.toNat) column := by
  intro addr
  rw [Sprite.pixel, Tile.toNat_pixel]
  simp only [addr, patternAddr, row, pixelAt]
  split <;> rfl

theorem covers_iff (px line : Nat) :
    s.Covers chr control px (line + 1) ↔
      s.coversLine control.spriteHeight line = true ∧ s.x.toNat ≤ px ∧ px < s.x.toNat + 8 ∧
        s.pixelAt chr control (line - s.y.toNat) (px - s.x.toNat) ≠ 0 := by
  rw [coversLine, decide_eq_true_eq]
  constructor
  · rintro ⟨row, hrow, column, hcolumn, hy, rfl, hpixel⟩
    obtain rfl : line = s.y.toNat + row := by omega
    simp only [Nat.add_sub_cancel_left]
    exact ⟨by omega, by omega, by omega, hpixel⟩
  · rintro ⟨hline, hleft, hright, hpixel⟩
    exact ⟨line - s.y.toNat, by omega, px - s.x.toNat, by omega, by omega, by omega, hpixel⟩

end Sprite

/-- The first sprite comes first on the lines that it covers. -/
theorem spritesOn_cases (memory : SpriteMemory) (height line : Nat) :
    ∃ others : List (Fin 64), (∀ i ∈ others, i.val ≠ 0) ∧
      spritesOn memory height line =
        if (Sprite.ofMemory memory 0).coversLine height line then 0 :: others else others := by
  refine ⟨((List.finRange 63).map Fin.succ).filter fun i =>
    (Sprite.ofMemory memory i).coversLine height line, fun i hi => ?_, ?_⟩
  · obtain ⟨j, -, rfl⟩ := List.mem_map.1 (List.mem_filter.1 hi).1
    exact Nat.succ_ne_zero j
  · rw [spritesOn, List.finRange_succ, List.filter_cons]

/-- A sprite whose row is fetched shows something in the columns where its pixel is not zero. -/
theorem isSome_entry? (p : Ppu) (cart : γ) (column : Nat) (i : Fin 64) :
    (p.entry? cart column i).isSome = true ↔
      (Sprite.ofMemory p.sprites i).x.toNat ≤ column ∧
        column < (Sprite.ofMemory p.sprites i).x.toNat + 8 ∧
        (Sprite.ofMemory p.sprites i).pixelAt (PictureBus.chrRead cart) p.control
          (p.beam.line - (Sprite.ofMemory p.sprites i).y.toNat)
          (column - (Sprite.ofMemory p.sprites i).x.toNat) ≠ 0 := by
  rw [← Sprite.toNat_pixel_patternAddr, entry?, SpriteLine.show?]
  simp only [Option.isSome_ite, ne_eq, ← UInt8.toNat_inj, UInt8.toNat_zero]

/-- None of the other sprites is the first one. -/
theorem isFirst_findSome? (p : Ppu) (cart : γ) (column : Nat) {others : List (Fin 64)}
    (h : ∀ i ∈ others, i.val ≠ 0) :
    ((others.findSome? (p.entry? cart column)).getD {}).isFirst = false := by
  cases hfind : others.findSome? (p.entry? cart column) with
  | none => rfl
  | some e =>
    obtain ⟨i, hi, he⟩ := List.exists_of_findSome?_eq_some hfind
    rw [Option.getD_some, (pixel_of_entry?_eq_some he).2]
    exact beq_eq_false_iff_ne.2 (h i hi)

/-- **The first sprite is seen wherever it covers a pixel of the next line,** and nowhere else. -/
theorem showsFirst_drawSprites (p : Ppu) (cart : γ) {column : Nat} (h : column < 256) :
    (p.drawSprites cart).spriteLine[column].pixel ≠ 0 ∧
        (p.drawSprites cart).spriteLine[column].isFirst = true ↔
      (Sprite.ofMemory p.sprites 0).Covers (PictureBus.chrRead cart) p.control column
        (p.beam.line + 1) := by
  obtain ⟨others, hothers, hfound⟩ :=
    spritesOn_cases p.sprites p.control.spriteHeight p.beam.line
  rw [getElem_spriteLine_drawSprites p cart h, hfound, Sprite.covers_iff]
  by_cases hcovers : (Sprite.ofMemory p.sprites 0).coversLine p.control.spriteHeight p.beam.line
  · rw [if_pos hcovers, List.take_succ_cons, List.findSome?_cons, ← isSome_entry?]
    cases hentry : p.entry? cart column 0 with
    | some e =>
      obtain ⟨hpixel, hfirst⟩ := pixel_of_entry?_eq_some hentry
      simp only [Option.getD_some, Option.isSome_some, and_true]
      exact ⟨fun _ => hcovers, fun _ => ⟨hpixel, hfirst⟩⟩
    | none =>
      have hrest := isFirst_findSome? p cart column
        fun i hi => hothers i (List.mem_of_mem_take (i := 7) hi)
      simp only [hrest, Option.isSome_none, Bool.false_eq_true, and_false]
  · have hrest := isFirst_findSome? p cart column
      fun i hi => hothers i (List.mem_of_mem_take (i := 8) hi)
    rw [if_neg hcovers, hrest]
    simp only [Bool.false_eq_true, and_false, hcovers, false_and]

end Nes.Ppu
