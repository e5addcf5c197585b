import Nes.Proofs.Ppu.Words
import Mathlib.Data.List.FinRange

/-!
# No stop

`Ppu.words` writes a picture unit down in words.  Every operation in words answers the words of what
the library's operation answers, so it has not stopped.
-/

namespace Nes.Ppu

open Checked

/-- A picture unit in words, with the picture being drawn at the given place of the pair. -/
def words (p : Ppu) (k : Bool) : Words where
  control := p.control
  mask := p.mask
  status := p.status
  v := p.v.toNat
  t := p.t.toNat
  x := p.fineX
  second := p.second
  vram := p.vram
  sprites := p.sprites
  spriteAddr := p.spriteAddr
  palette := p.palette
  readBuffer := p.readBuffer
  openBus := p.openBus
  beam := p.beam
  nmi := p.nmi
  background := p.background
  spriteLine := p.spriteLine
  pictures := if k then #v[p.front, p.back] else #v[p.back, p.front]
  back := k.toNat
  frameReady := p.frameReady

/-! ### Indices -/

theorem vramIndex?_eq (m : Mirroring) {addr : UInt16} {n : Nat} (hn : n = addr.toNat) :
    vramIndex? m n = some (m.vramIndex addr) := by
  have hpage : m.page (addr.toNat % 0x1000 / 0x400) < 4 := m.page_lt (by omega)
  have hoffset : n &&& 0x0FFF = addr.toNat % 0x1000 :=
    hn ▸ Nat.and_two_pow_sub_one_eq_mod addr.toNat 12
  have hrest : addr.toNat % 0x1000 &&& 0x3FF = addr.toNat % 0x1000 % 0x400 :=
    Nat.and_two_pow_sub_one_eq_mod _ 10
  unfold vramIndex? Mirroring.vramIndex
  simp only [hoffset, hrest]
  exact bind_eq (mul_eq (by omega)) (add_eq (by omega))

theorem paletteIndex?_eq {addr : UInt16} {n : Nat} (hn : n = addr.toNat) :
    paletteIndex? n = some (paletteIndex addr) := by
  have hindex : n &&& 0x1F = addr.toNat % 32 := hn ▸ Nat.and_two_pow_sub_one_eq_mod addr.toNat 5
  have hcolumn : addr.toNat % 32 &&& 3 = addr.toNat % 32 % 4 := Nat.and_two_pow_sub_one_eq_mod _ 2
  unfold paletteIndex? paletteIndex
  simp only [hindex, hcolumn]
  split_ifs with h
  · exact sub_eq h.1
  · rfl

theorem rgb?_eq (entry : UInt8) (greyscale : Bool) :
    rgb? entry greyscale = some (rgb entry greyscale) := by
  have hentry := entry.toNat_lt
  unfold rgb? rgb
  cases greyscale with
  | false =>
    have hmask : (entry &&& 0x3F).toNat = entry.toNat % 64 :=
      Nat.and_two_pow_sub_one_eq_mod entry.toNat 6
    simp only [Bool.false_eq_true, ↓reduceIte, hmask]
    exact Array.getElem?_eq_getElem _
  | true =>
    have hmask : (entry &&& 0x30).toNat = entry.toNat / 16 % 4 * 16 := by
      have hlow : field 0 4 (entry.toNat &&& 0x30) = 0 := field_drop _ (by decide)
      have hmiddle : field 4 2 (entry.toNat &&& 0x30) = field 4 2 entry.toNat :=
        field_keep _ (by decide)
      have htop : field 6 2 (entry.toNat &&& 0x30) = 0 := field_drop _ (by decide)
      have hlt := Word.toNat_and_lt_byte entry 0x30
      rw [UInt8.toNat_and]
      simp only [field] at hlow hmiddle htop
      change entry.toNat &&& 0x30 = _
      omega
    simp only [↓reduceIte, hmask]
    exact Array.getElem?_eq_getElem _

theorem Beam.InFrame.advance?_eq {b : Beam} (h : b.InFrame) (r : Bool) :
    b.advance? r = some (b.advance r) := by
  have hline : b.line < 262 := h.line_lt
  have hdot : b.dot < 341 := h.dot_lt
  unfold Beam.advance? Beam.advance
  refine bind_eq (add_eq (by omega)) ?_
  have hskips : (b.preRender && b.dot + 1 == 340 && b.oddFrame && r) = b.skipsDot r := rfl
  rw [hskips]
  cases hs : b.skipsDot r with
  | true =>
    simp only [↓reduceIte, Bool.true_or, Nat.le_refl]
    refine bind_eq (add_eq (by omega)) ?_
    unfold Beam.nextLine
    split_ifs <;> rfl
  | false =>
    simp only [Bool.false_eq_true, ↓reduceIte, Bool.false_or, decide_eq_true_eq]
    split_ifs with hend
    · refine bind_eq (add_eq (by omega)) ?_
      unfold Beam.nextLine
      split_ifs <;> rfl
    · rfl

/-! ### The control register -/

namespace Control

theorem spriteTable_le (control : Control) : control.spriteTable ≤ 0x1000 := by
  unfold spriteTable
  split_ifs <;> decide

theorem backgroundTable_le (control : Control) : control.backgroundTable ≤ 0x1000 := by
  unfold backgroundTable
  split_ifs <;> decide

end Control

/-! ### Sprites -/

theorem Sprite.pixel?_eq (s : Sprite) (low high : UInt8) {column : Nat} (h : column < 8) :
    s.pixel? low high column = some (s.pixel low high column) := by
  unfold Sprite.pixel? Sprite.pixel Tile.pixel
  cases s.flippedX with
  | true =>
    have hbit : 7 - (7 - column) = column := by omega
    simp only [↓reduceIte, hbit]
    exact if_pos h
  | false =>
    simp only [Bool.false_eq_true, ↓reduceIte]
    exact bind_eq (sub_eq (by omega)) (if_pos (by omega))

theorem SpriteLine.paintFrom?_eq (shown : SpriteLine) (s : Sprite) (isFirst : Bool)
    (low high : UInt8) (column : Nat) :
    shown.paintFrom? s isFirst low high column =
      some (shown.paintFrom s isFirst low high column) := by
  have hx := s.x.toNat_lt
  fun_induction SpriteLine.paintFrom shown s isFirst low high column with
  | case1 shown column hcolumn hinside pixel shown' ih =>
    rw [paintFrom?, if_pos hcolumn]
    refine bind_eq (add_eq (by omega)) ?_
    rw [dif_pos hinside]
    refine bind_eq (s.pixel?_eq low high hcolumn) ?_
    refine bind_eq (Vector.getElem?_eq_getElem hinside) ?_
    rw [← ih]
    by_cases hshown : (pixel == 0 || shown[s.x.toNat + column].pixel != 0) = true
    · have hkept : shown' = shown := dif_pos hshown
      rw [if_pos hshown, hkept]
    · have hset : shown' = shown.set (s.x.toNat + column)
          { pixel, palette := s.palette, behind := s.behind, isFirst } hinside := dif_neg hshown
      rw [if_neg hshown, hset]
  | case2 shown column hcolumn houtside =>
    rw [paintFrom?, if_pos hcolumn]
    exact bind_eq (add_eq (by omega)) (dif_neg houtside)
  | case3 shown column hcolumn => rw [paintFrom?, if_neg hcolumn]

namespace Sprite

theorem ofMemory?_eq (memory : SpriteMemory) (i : Fin 64) :
    ofMemory? memory i = some (ofMemory memory i) := by
  have hi := i.isLt
  have hbase : i.val * 4 = 4 * i.val := Nat.mul_comm ..
  unfold ofMemory? ofMemory
  refine bind_eq (mul_eq (by omega)) ?_
  rw [hbase]
  refine bind_eq (Vector.getElem?_eq_getElem (by omega)) ?_
  refine bind_eq (add_eq (by omega)) <| bind_eq (Vector.getElem?_eq_getElem (by omega)) ?_
  refine bind_eq (add_eq (by omega)) <| bind_eq (Vector.getElem?_eq_getElem (by omega)) ?_
  exact bind_eq (add_eq (by omega)) <| bind_eq (Vector.getElem?_eq_getElem (by omega)) rfl

theorem row?_eq (s : Sprite) {height line : Nat} (hheight : height ≤ 16) (hline : line < 262) :
    s.row? height line =
      some (if s.coversLine height line then some (s.row height line) else none) := by
  have hy := s.y.toNat_lt
  unfold row? coversLine row
  -- Of a line above the sprite the difference is below zero, so that it has a sign.
  refine bind_eq (signed_eq (by omega) (by omega)) ?_
  by_cases hcovers : s.y.toNat ≤ line ∧ line < s.y.toNat + height
  · rw [if_pos (by omega), if_pos (decide_eq_true hcovers)]
    cases s.flippedY with
    | true =>
      simp only [↓reduceIte]
      refine bind_eq (signed_eq (by omega) (by omega)) ?_
      refine bind_eq (signed_eq (by omega) (by omega)) ?_
      have hrow : ((height : Int) - 1 - (line - s.y.toNat)).toNat =
          height - 1 - (line - s.y.toNat) := by omega
      rw [hrow]
    | false =>
      have hrow : ((line : Int) - s.y.toNat).toNat = line - s.y.toNat := by omega
      simp only [Bool.false_eq_true, ↓reduceIte, hrow]
  · rw [if_neg (by omega), if_neg (by rw [decide_eq_true_eq]; exact hcovers)]

theorem row_lt {s : Sprite} {height line : Nat} (h : s.coversLine height line = true) :
    s.row height line < height := by
  rw [coversLine, decide_eq_true_eq] at h
  unfold row
  dsimp only
  split_ifs <;> omega

/-- The row of a sprite lies in a pattern table, with the high bits eight bytes after the low
ones. -/
theorem patternAddr_lt (s : Sprite) (control : Control) {row : Nat}
    (h : row < control.spriteHeight) : s.patternAddr control row + 8 < 0x2000 := by
  have htile := s.tile.toNat_lt
  have htable := control.spriteTable_le
  unfold patternAddr
  rcases control.spriteHeight_cases with h8 | h16
  · rw [if_pos h8]
    omega
  · rw [if_neg (by omega)]
    omega

theorem and_0xFE (d : UInt8) : d.toNat &&& 0xFE = d.toNat / 2 * 2 := by
  have hlow : field 0 1 (d.toNat &&& 0xFE) = 0 := field_drop _ (by decide)
  have hhigh : field 1 7 (d.toNat &&& 0xFE) = field 1 7 d.toNat := field_keep _ (by decide)
  have hlt := Word.toNat_and_lt_byte d 0xFE
  have hd := d.toNat_lt
  simp only [field] at hlow hhigh
  omega

theorem patternAddr?_eq (s : Sprite) (control : Control) {row : Nat}
    (h : row < control.spriteHeight) :
    s.patternAddr? control row = some (s.patternAddr control row) := by
  have htile := s.tile.toNat_lt
  have htable := control.spriteTable_le
  unfold patternAddr? patternAddr
  rcases control.spriteHeight_cases with h8 | h16
  · rw [if_pos h8, if_pos h8]
    refine bind_eq (mul_eq (by omega)) <| bind_eq (add_eq (by omega)) ?_
    exact add_eq (by omega)
  · have hhalf : row / 8 < 2 := by omega
    have hodd : s.tile.toNat &&& 1 = s.tile.toNat % 2 := Nat.and_two_pow_sub_one_eq_mod _ 1
    have hrow : row &&& 7 = row % 8 := Nat.and_two_pow_sub_one_eq_mod _ 3
    rw [if_neg (by omega), if_neg (by omega), hodd, hrow, and_0xFE]
    refine bind_eq (mul_eq (by omega)) <| bind_eq (add_eq (by omega)) ?_
    refine bind_eq (mul_eq (by omega)) <| bind_eq (add_eq (by omega)) ?_
    exact add_eq (by omega)

end Sprite

variable {γ : Type} [PictureBus γ] (p : Ppu) (k : Bool) (cart : γ)

/-! ### Memory -/

theorem chrRead?_eq {addr : Nat} (h : addr < 0x2000) :
    Words.chrRead? cart addr = some (PictureBus.chrRead cart (UInt16.ofNat addr)) := if_pos h

theorem toNat_and_0x3FFF {addr : Nat} (h : addr < 2 ^ 16) :
    (UInt16.ofNat addr &&& 0x3FFF).toNat = addr &&& 0x3FFF := by
  rw [UInt16.toNat_and, UInt16.toNat_ofNat_of_lt' h]
  rfl

theorem masked_lt_iff {addr : Nat} (h : addr < 2 ^ 16) (bound : UInt16) :
    UInt16.ofNat addr &&& 0x3FFF < bound ↔ addr &&& 0x3FFF < bound.toNat := by
  rw [UInt16.lt_iff_toNat_lt, toNat_and_0x3FFF h]

theorem readMemory?_words {addr : Nat} (h : addr < 2 ^ 16) :
    (p.words k).readMemory? cart addr = some (p.readMemory cart (UInt16.ofNat addr)) := by
  have haddr := toNat_and_0x3FFF h
  unfold Words.readMemory? readMemory
  simp only [masked_lt_iff h 0x2000, masked_lt_iff h 0x3F00, UInt16.reduceToNat]
  split_ifs with hchr hvram
  · rw [chrRead?_eq cart hchr, ← haddr, UInt16.ofNat_toNat]
  · exact bind_eq (vramIndex?_eq _ haddr.symm) (Vector.getElem?_eq_getElem _)
  · exact bind_eq (paletteIndex?_eq haddr.symm) (Vector.getElem?_eq_getElem _)

theorem writeMemory?_words {addr : Nat} (h : addr < 2 ^ 16) (d : UInt8) :
    (p.words k).writeMemory? cart addr d =
      some ((p.writeMemory cart (UInt16.ofNat addr) d).1.words k,
        (p.writeMemory cart (UInt16.ofNat addr) d).2) := by
  have haddr := toNat_and_0x3FFF h
  unfold Words.writeMemory? writeMemory
  simp only [masked_lt_iff h 0x2000, masked_lt_iff h 0x3F00, UInt16.reduceToNat]
  split_ifs with hchr hvram
  · refine bind_eq (if_pos hchr) ?_
    rw [← haddr, UInt16.ofNat_toNat]
  · exact bind_eq (vramIndex?_eq _ haddr.symm) (dif_pos (Mirroring.vramIndex_lt ..))
  · exact bind_eq (paletteIndex?_eq haddr.symm) (dif_pos (paletteIndex_lt _))

/-! ### Background -/

theorem tileAddr_lt (s : Scroll) : s.tileAddr < 2 ^ 16 := by
  unfold Scroll.tileAddr
  omega

theorem attributeAddr_lt (s : Scroll) : s.attributeAddr < 2 ^ 16 := by
  have := s.coarseX.isLt
  have := s.coarseY.isLt
  have := s.tableX.toNat_lt
  have := s.tableY.toNat_lt
  unfold Scroll.attributeAddr
  omega

/-- The row of a tile lies in a pattern table, with the high bits eight bytes after the low ones. -/
theorem patternAddr_lt : p.patternAddr + 8 < 0x2000 := by
  have htile := p.background.tile.toNat_lt
  have hrow := p.v.fineY.isLt
  have htable := p.control.backgroundTable_le
  unfold patternAddr
  omega

theorem patternAddr?_words : (p.words k).patternAddr? = some p.patternAddr := by
  have htile := p.background.tile.toNat_lt
  have htable := p.control.backgroundTable_le
  have hrow : p.v.toNat >>> 12 &&& 7 = p.v.fineY := by
    rw [← p.v.field_fineY, field, Nat.shiftRight_eq_div_pow]
    exact Nat.and_two_pow_sub_one_eq_mod _ 3
  have hfine := p.v.fineY.isLt
  refine bind_eq (mul_eq (a := p.background.tile.toNat) (by omega)) ?_
  refine bind_eq (add_eq (a := p.control.backgroundTable) (by omega)) ?_
  change add 16 _ (p.v.toNat >>> 12 &&& 7) = some p.patternAddr
  rw [hrow]
  exact add_eq (by omega)

theorem fetchTile?_words :
    (p.words k).fetchTile? cart = some ((p.fetchTile cart).words k) := by
  refine bind_eq ?_ rfl
  have haddr : Word.tileAddr (p.words k).v = p.v.tileAddr := Word.tileAddr_toNat p.v
  rw [haddr]
  exact p.readMemory?_words k cart (tileAddr_lt _)

theorem fetchAttribute?_words :
    (p.words k).fetchAttribute? cart = some ((p.fetchAttribute cart).words k) := by
  have haddr : Word.attributeAddr (p.words k).v = p.v.attributeAddr := Word.attributeAddr_toNat p.v
  have hbits (d : UInt8) : Word.attributeBits (p.words k).v d = p.v.attributeBits d :=
    Word.attributeBits_toNat p.v d
  unfold Words.fetchAttribute?
  simp only [haddr, hbits]
  exact bind_eq (p.readMemory?_words k cart (attributeAddr_lt _)) rfl

theorem fetchLow?_words : (p.words k).fetchLow? cart = some ((p.fetchLow cart).words k) := by
  have := p.patternAddr_lt
  exact bind_eq (p.patternAddr?_words k) (bind_eq (chrRead?_eq cart (by omega)) rfl)

theorem fetchHigh?_words : (p.words k).fetchHigh? cart = some ((p.fetchHigh cart).words k) := by
  have := p.patternAddr_lt
  exact bind_eq (p.patternAddr?_words k) (bind_eq (add_eq (by omega))
    (bind_eq (chrRead?_eq cart (by omega)) rfl))

theorem fetchStep?_words (phase : Nat) :
    (p.words k).fetchStep? cart phase = some ((p.fetchStep cart phase).words k) := by
  match phase with
  | 0 => exact fetchTile?_words p.loadBackground k cart
  | 2 => exact fetchAttribute?_words p k cart
  | 4 => exact fetchLow?_words p k cart
  | 6 => exact fetchHigh?_words p k cart
  | 7 => exact bind_eq (Word.nextTile?_toNat p.v) rfl
  | 1 | 3 | 5 => rfl
  | _ + 8 => rfl

theorem fetchDot?_words (dot : Nat) :
    (p.words k).fetchDot? cart dot =
      some ((if (2 ≤ dot && dot ≤ 257) || (321 ≤ dot && dot ≤ 337) then
        fetchStep { p with background := p.background.shift } cart ((dot - 1) % 8)
      else p).words k) := by
  unfold Words.fetchDot?
  split_ifs with hdot
  · simp only [Bool.or_eq_true, Bool.and_eq_true, decide_eq_true_eq] at hdot
    exact bind_eq (sub_eq (by omega))
      (fetchStep?_words { p with background := p.background.shift } k cart _)
  · rfl

theorem turnDot?_words (dot : Nat) :
    (p.words k).turnDot? cart dot =
      some ((if dot == 256 then { p with v := p.v.nextRow }
      else if dot == 257 then { p.loadBackground with v := p.v.takeX p.t }
      else if dot == 338 || dot == 340 then p.fetchTile cart
      else p : Ppu).words k) := by
  unfold Words.turnDot?
  split_ifs
  · exact bind_eq (Word.nextRow?_toNat p.v) rfl
  · have hv : Word.takeX (p.words k).v (p.words k).t = (p.v.takeX p.t).toNat :=
      Word.takeX_toNat p.v p.t
    rw [hv]
    rfl
  · exact fetchTile?_words p k cart
  · rfl

theorem fetchBackground?_words :
    (p.words k).fetchBackground? cart = some ((p.fetchBackground cart).words k) :=
  bind_eq (fetchDot?_words p k cart p.beam.dot) (turnDot?_words _ k cart p.beam.dot)

/-! ### Drawing -/

/-- The sprites of a list that cover the beam's line. -/
def covering (found : List (Fin 64)) : List (Fin 64) :=
  found.filter fun i =>
    (Sprite.ofMemory p.sprites i).coversLine p.control.spriteHeight p.beam.line

theorem covering_cons_of_covers {i : Fin 64} (others : List (Fin 64))
    (h : (Sprite.ofMemory p.sprites i).coversLine p.control.spriteHeight p.beam.line = true) :
    p.covering (i :: others) = i :: p.covering others := List.filter_cons_of_pos h

theorem covering_cons_of_not_covers {i : Fin 64} (others : List (Fin 64))
    (h : ¬(Sprite.ofMemory p.sprites i).coversLine p.control.spriteHeight p.beam.line = true) :
    p.covering (i :: others) = p.covering others := List.filter_cons_of_neg h

section Sprites

variable {p : Ppu} (hline : p.beam.line < 262)
include hline

theorem row?_words (i : Fin 64) :
    (Sprite.ofMemory p.sprites i).row? p.control.spriteHeight p.beam.line =
      some (if (Sprite.ofMemory p.sprites i).coversLine p.control.spriteHeight p.beam.line then
        some ((Sprite.ofMemory p.sprites i).row p.control.spriteHeight p.beam.line) else none) := by
  refine Sprite.row?_eq _ ?_ hline
  rcases p.control.spriteHeight_cases with h | h <;> omega

theorem drawFrom?_cons_of_not_covers {i : Fin 64} (others : List Nat) (n : Nat) (line : SpriteLine)
    (h : ¬(Sprite.ofMemory p.sprites i).coversLine p.control.spriteHeight p.beam.line = true) :
    (p.words k).drawFrom? cart (i.val :: others) n line =
      (p.words k).drawFrom? cart others n line := by
  have hrow := row?_words hline i
  rw [if_neg h] at hrow
  rw [Words.drawFrom?]
  exact bind_eq (Sprite.ofMemory?_eq p.sprites i) (bind_eq hrow rfl)

/-- A ninth sprite is noticed and not drawn. -/
theorem drawFrom?_cons_of_full {i : Fin 64} (others : List Nat) (line : SpriteLine)
    (h : (Sprite.ofMemory p.sprites i).coversLine p.control.spriteHeight p.beam.line = true) :
    (p.words k).drawFrom? cart (i.val :: others) 8 line = some (line, true) := by
  have hrow := row?_words hline i
  rw [if_pos h] at hrow
  rw [Words.drawFrom?]
  exact bind_eq (Sprite.ofMemory?_eq p.sprites i) (bind_eq hrow (if_pos rfl))

theorem drawFrom?_cons_of_covers {i : Fin 64} (others : List Nat) {n : Nat} (hn : n < 8)
    (line : SpriteLine)
    (h : (Sprite.ofMemory p.sprites i).coversLine p.control.spriteHeight p.beam.line = true) :
    (p.words k).drawFrom? cart (i.val :: others) n line =
      (p.words k).drawFrom? cart others (n + 1) (p.drawSprite cart line i) := by
  have hrow := row?_words hline i
  rw [if_pos h] at hrow
  have hlt := Sprite.row_lt h
  have haddr := Sprite.patternAddr_lt (Sprite.ofMemory p.sprites i) p.control hlt
  rw [Words.drawFrom?]
  refine bind_eq (Sprite.ofMemory?_eq p.sprites i) <| bind_eq hrow ?_
  refine (if_neg (Nat.ne_of_lt hn)).trans ?_
  refine bind_eq (add_eq (by omega)) <| bind_eq (Sprite.patternAddr?_eq _ p.control hlt) ?_
  refine bind_eq (chrRead?_eq cart (by omega)) <| bind_eq (add_eq (by omega)) ?_
  exact bind_eq (chrRead?_eq cart haddr) <| bind_eq (SpriteLine.paintFrom?_eq ..) rfl

/-- Going through sprites with a count is to draw the first of those that cover the line, and to
notice one more. -/
theorem drawFrom?_words (sprites : List (Fin 64)) {n : Nat} (hn : n ≤ 8) (line : SpriteLine) :
    (p.words k).drawFrom? cart (sprites.map Fin.val) n line =
      some (((p.covering sprites).take (8 - n)).foldl (p.drawSprite cart) line,
        decide (8 < n + (p.covering sprites).length)) := by
  induction sprites generalizing n line with
  | nil =>
    have hfew : decide (8 < n + (p.covering []).length) = false :=
      decide_eq_false (Nat.not_lt.2 hn)
    rw [hfew]
    simp [covering, Words.drawFrom?]
  | cons i others ih =>
    rw [List.map_cons]
    by_cases hcovers :
        (Sprite.ofMemory p.sprites i).coversLine p.control.spriteHeight p.beam.line = true
    · rw [covering_cons_of_covers _ _ hcovers]
      rcases Nat.lt_or_eq_of_le hn with hroom | rfl
      · have hleft : 8 - n = 8 - (n + 1) + 1 := by omega
        have hcount : n + 1 + (p.covering others).length = n + ((p.covering others).length + 1) :=
          Nat.succ_add_eq_add_succ ..
        rw [drawFrom?_cons_of_covers k cart hline _ hroom _ hcovers, ih (by omega), hleft,
          List.take_succ_cons, List.foldl_cons, List.length_cons, hcount]
      · have hmore : decide (8 < 8 + (i :: p.covering others).length) = true :=
          decide_eq_true (Nat.lt_add_of_pos_right (Nat.succ_pos _))
        rw [drawFrom?_cons_of_full k cart hline _ _ hcovers, hmore]
        rfl
    · rw [covering_cons_of_not_covers _ _ hcovers,
        drawFrom?_cons_of_not_covers k cart hline _ _ _ hcovers, ih hn]

end Sprites

theorem drawSprites?_words (hline : p.beam.line < 262) :
    (p.words k).drawSprites? cart = some ((p.drawSprites cart).words k) := by
  have hrange : List.range 64 = (List.finRange 64).map Fin.val :=
    List.map_coe_finRange_eq_range.symm
  unfold Words.drawSprites?
  rw [hrange]
  refine bind_eq (drawFrom?_words k cart hline (List.finRange 64) (Nat.zero_le 8) .empty) ?_
  rw [Nat.zero_add]
  rfl

theorem backgroundAt?_words (column : Nat) :
    (p.words k).backgroundAt? column = some (p.backgroundAt column) := by
  have hx : p.fineX.val < 16 := Nat.lt_trans p.fineX.isLt (by decide)
  exact ite_eq (fun _ => if_pos hx) fun _ => rfl

theorem spriteAt?_words {column : Nat} (h : column < 256) :
    (p.words k).spriteAt? column = some (p.spriteAt column) := by
  have hget : p.spriteLine.getD column {} = p.spriteLine[column] := by simp [Vector.getD, h]
  rw [spriteAt, hget]
  exact ite_eq (fun _ => Vector.getElem?_eq_getElem h) fun _ => rfl

theorem backgroundAt_lt (column : Nat) :
    (p.backgroundAt column).1 < 4 ∧ (p.backgroundAt column).2 < 4 := by
  have hbits (a b : Bool) : 2 * a.toNat + b.toNat < 4 := by cases a <;> cases b <;> decide
  unfold backgroundAt
  split_ifs
  · exact ⟨hbits _ _, hbits _ _⟩
  · decide

theorem entryAddr?_eq {start palette pixel : Nat} (h : start + palette * 4 + pixel < 2 ^ 16) :
    entryAddr? start palette pixel = some (start + palette * 4 + pixel) :=
  bind_eq (mul_eq (by omega)) <| bind_eq (add_eq (by omega)) <| add_eq h

/-- Where background and sprite meet, no sum leaves its word, whatever the sprite's palette. -/
theorem mix?_eq {pixel palette : Nat} (hpixel : pixel < 4) (hpalette : palette < 4)
    (sprite : SpritePixel) :
    mix? pixel palette sprite = some (mix pixel palette sprite).toNat := by
  have hp := sprite.palette.toNat_lt
  have hs := sprite.pixel.toNat_lt
  have hbackground : (UInt16.ofNat (0x3F00 + palette * 4 + pixel)).toNat =
      0x3F00 + palette * 4 + pixel := UInt16.toNat_ofNat_of_lt' (by simp only [UInt16.size]; omega)
  have hforeground :
      (0x3F10 + sprite.palette.toUInt16 * 4 + sprite.pixel.toUInt16).toNat =
        0x3F10 + sprite.palette.toNat * 4 + sprite.pixel.toNat := by
    simp only [UInt16.toNat_add, UInt16.toNat_mul, UInt8.toNat_toUInt16, UInt16.reduceToNat]
    omega
  refine bind_eq (entryAddr?_eq (by omega)) <| bind_eq (entryAddr?_eq (by omega)) ?_
  rw [← hbackground, ← hforeground]
  unfold mix
  dsimp only
  split_ifs <;> rfl

theorem put?_words {cell : Nat} (h : cell < 256 * 240) (colour : UInt32) :
    (p.words k).put? cell colour =
      some (({ p with back := p.back.setIfInBounds cell colour } : Ppu).words k) := by
  have hset : p.back.setIfInBounds cell colour = p.back.set cell colour h :=
    Vector.ext fun i hi => by rw [Vector.getElem_setIfInBounds, Vector.getElem_set]
  rw [hset]
  cases k with
  | false => exact bind_eq (a := p.back) rfl (dif_pos ⟨h, Bool.toNat_lt false⟩)
  | true => exact bind_eq (a := p.back) rfl (dif_pos ⟨h, Bool.toNat_lt true⟩)

theorem drawPixel?_words (h : p.beam.drawing = true) :
    (p.words k).drawPixel? = some (p.drawPixel.words k) := by
  obtain ⟨hline, h1, h256⟩ := Beam.drawing_iff.1 h
  obtain ⟨hpixel, hpalette⟩ := p.backgroundAt_lt (p.beam.dot - 1)
  have hstart : p.beam.line * width < 2 ^ 64 := by
    unfold width
    omega
  have hcell : p.beam.line * width + (p.beam.dot - 1) < 256 * 240 := by
    unfold width
    omega
  refine bind_eq (sub_eq (a := p.beam.dot) h1) <| bind_eq (p.backgroundAt?_words k _) ?_
  refine bind_eq (p.spriteAt?_words k (by omega)) <| bind_eq (mix?_eq hpixel hpalette _) ?_
  refine bind_eq (paletteIndex?_eq rfl) ?_
  refine bind_eq (Vector.getElem?_eq_getElem (paletteIndex_lt _)) <| bind_eq (rgb?_eq ..) ?_
  refine bind_eq (mul_eq (a := p.beam.line) hstart) ?_
  refine bind_eq (add_eq (Nat.lt_trans hcell (by decide))) ?_
  exact bind_eq (p.put?_words k hcell _) rfl

/-! ### A dot -/

theorem spriteDot?_words (hline : p.beam.line < 262) :
    (p.words k).spriteDot? cart =
      some ((if p.beam.dot == 257 then
        if p.beam.visible then p.drawSprites cart else { p with spriteLine := .empty }
      else p : Ppu).words k) := by
  refine ite_eq (f := fun q => some (words q k)) (fun _ => ?_) fun _ => rfl
  exact ite_eq (f := fun q => some (words q k)) (fun _ => p.drawSprites?_words k cart hline)
    fun _ => rfl

theorem topDot_words :
    (p.words k).topDot =
      (if p.beam.preRender && 280 ≤ p.beam.dot && p.beam.dot ≤ 304 then
        { p with v := p.v.takeY p.t } else p : Ppu).words k := by
  have hv : Word.takeY (p.words k).v (p.words k).t = (p.v.takeY p.t).toNat :=
    Word.takeY_toNat p.v p.t
  unfold Words.topDot
  rw [hv]
  exact ite_eq (f := fun q => words q k) (fun _ => rfl) fun _ => rfl

theorem render?_words (hline : p.beam.line < 262) :
    (p.words k).render? cart = some ((p.render cart).words k) := by
  have hbeam : (p.fetchBackground cart).beam = p.beam :=
    congrArg Screen.beam (screen_fetchBackground p cart)
  refine bind_eq (p.fetchBackground?_words k cart) ?_
  refine bind_eq (spriteDot?_words _ k cart (hbeam ▸ hline)) ?_
  rw [topDot_words]
  rfl

theorem flagDot_words :
    (p.words k).flagDot = (if p.endsFlags then { p with status := {} } else p : Ppu).words k :=
  ite_eq (f := fun q => words q k) (fun _ => rfl) fun _ => rfl

theorem lineDot?_words (hline : p.beam.line < 262) :
    (p.words k).lineDot? cart = some ((if p.rendersLine then p.render cart else p).words k) :=
  ite_eq (f := fun q => some (words q k)) (fun _ => p.render?_words k cart hline) fun _ => rfl

theorem paintDot?_words :
    (p.words k).paintDot? = some ((if p.beam.drawing then p.drawPixel else p).words k) :=
  ite_eq (f := fun q => some (words q k)) (fun hdraws => p.drawPixel?_words k hdraws) fun _ => rfl

/-- When the blank starts, the pictures stay where they are and change their roles. -/
theorem enterVblank_words : (p.words k).enterVblank = p.enterVblank.words (!k) := by
  have hback : (p.words k).back ^^^ 1 = (!k).toNat := Word.toNat_not k rfl
  have hpictures : (p.words k).pictures = (p.enterVblank.words (!k)).pictures := by
    cases k <;> rfl
  unfold Words.enterVblank
  rw [hback, hpictures]
  rfl

theorem blankDot_words :
    (p.words k).blankDot =
      (if p.beam.entersVblank then p.enterVblank else p).words (k ^^ p.beam.entersVblank) := by
  by_cases hblank : p.beam.entersVblank = true
  · rw [if_pos hblank, hblank, Bool.xor_true, ← enterVblank_words]
    exact if_pos hblank
  · have hk : (k ^^ p.beam.entersVblank) = k := by
      rw [Bool.not_eq_true] at hblank
      rw [hblank, Bool.xor_false]
    rw [if_neg hblank, hk]
    exact if_neg hblank

/-- A dot changes the role of the pictures when the blank starts. -/
theorem tick?_words (h : p.beam.InFrame) :
    (p.words k).tick? cart = some ((p.tick cart).words (k ^^ p.beam.entersVblank)) := by
  have hflags : (if p.endsFlags then { p with status := {} } else p : Ppu).beam = p.beam := by
    split_ifs <;> rfl
  have hprepared : (p.prepared cart).beam = p.beam := congrArg Screen.beam (screen_prepared p cart)
  have hpainted : (p.painted cart).beam = p.beam := by
    rw [painted]
    split_ifs <;> exact hprepared
  -- Nothing before the end of a dot moves the beam, which is asked at every stage.
  refine bind_eq (a := (p.prepared cart).words k) ?_ ?_
  · rw [flagDot_words]
    refine lineDot?_words _ k cart ?_
    rw [hflags]
    exact h.line_lt
  refine bind_eq (a := (p.painted cart).words k) ?_ ?_
  · rw [paintDot?_words, hprepared]
    rfl
  rw [blankDot_words, hpainted, tick_eq]
  refine bind_eq (a := p.beam.advance p.mask.rendering) ?_ rfl
  have hbeam : ((p.painted cart).words k).beam = p.beam := hpainted
  rw [hbeam]
  exact h.advance?_eq _

end Nes.Ppu
