import Mathlib.Data.List.FinRange
import Nes.Proofs.Ppu.Foreground

/-!
# The eight sprites of a line

Of the sprites that have a row for a line (`Ppu.InRange`), the first eight in the order of sprite
memory are drawn; a ninth one is noticed and no more.  In every column of the line one sees the
sprite with the lowest number among those that are drawn and whose pixel there is not zero
(`Ppu.Shows`, `Ppu.sprites_drawn`).
-/

namespace Nes.Ppu

/-! ### The first of those that are selected -/

section

variable {n : Nat} (P : Fin n → Bool)

theorem pairwise_take_filter (k : Nat) :
    (((List.finRange n).filter P).take k).Pairwise (· < ·) :=
  ((List.pairwise_lt_finRange n).filter P).sublist (List.take_sublist k _)

/-- The smaller numbers that are selected are the ones before a number. -/
theorem countP_lt_eq {before after : List (Fin n)} {i : Fin n}
    (h : (before ++ i :: after).Pairwise (· < ·)) :
    ((before ++ i :: after).countP fun j => decide (j < i) && P j) = (before.filter P).length := by
  obtain ⟨-, hafter, hbefore⟩ := List.pairwise_append.1 h
  have hnone : (after.countP fun j => decide (j < i) && P j) = 0 := by
    refine List.countP_eq_zero.2 fun j hj => ?_
    have hlt : i < j := (List.pairwise_cons.1 hafter).1 j hj
    simp [hlt.not_gt]
  have hall : (before.countP fun j => decide (j < i) && P j) = before.countP P := by
    refine List.countP_congr fun j hj => ?_
    have hlt : j < i := hbefore j hj i List.mem_cons_self
    simp [hlt]
  rw [List.countP_append, List.countP_cons_of_neg (by simp), hnone, hall, Nat.add_zero,
    List.countP_eq_length_filter]

/-- A number is among the first `k` that are selected if fewer than `k` smaller ones are. -/
theorem mem_take_filter_iff (k : Nat) (i : Fin n) :
    i ∈ ((List.finRange n).filter P).take k ↔
      P i = true ∧ ((List.finRange n).countP fun j => decide (j < i) && P j) < k := by
  obtain ⟨before, after, hsplit⟩ := List.append_of_mem (List.mem_finRange i)
  have hsorted := List.pairwise_lt_finRange n
  rw [hsplit] at hsorted ⊢
  rw [countP_lt_eq P hsorted, List.filter_append]
  cases hi : P i with
  | false =>
    refine iff_of_false (fun hmem => ?_) (fun h => Bool.noConfusion h.1)
    obtain ⟨-, hP⟩ := List.mem_filter.1 (List.filter_append _ _ ▸ List.mem_of_mem_take hmem)
    exact Bool.noConfusion (hi.symm.trans hP)
  | true =>
    have hfront : i ∉ (before.filter P).take k := by
      intro hmem
      have hbefore : i ∈ before := (List.mem_filter.1 (List.mem_of_mem_take hmem)).1
      exact lt_irrefl i ((List.pairwise_append.1 hsorted).2.2 i hbefore i List.mem_cons_self)
    -- So it is one of them if they leave room for one more.
    rw [List.filter_cons_of_pos hi, List.take_append, List.mem_append, or_iff_right hfront]
    obtain hlt | hle := Nat.lt_or_ge (before.filter P).length k
    · obtain ⟨m, hm⟩ := Nat.exists_eq_succ_of_ne_zero (Nat.sub_ne_zero_of_lt hlt)
      simp [hm, hlt]
    · simp [Nat.sub_eq_zero_of_le hle, Nat.not_lt.2 hle]

end

/-! ### The sprites that are drawn -/

/-- A sprite of sprite memory has a row for the beam's line. -/
def InRange (p : Ppu) (i : Fin 64) : Prop :=
  (Sprite.ofMemory p.sprites i).y.toNat ≤ p.beam.line ∧
    p.beam.line < (Sprite.ofMemory p.sprites i).y.toNat + p.control.spriteHeight

instance (p : Ppu) : DecidablePred p.InRange := fun _ => inferInstanceAs (Decidable (_ ∧ _))

/-- How many of the first `n` sprites are in range. -/
def inRangeAmong (p : Ppu) (n : Nat) : Nat :=
  (List.finRange 64).countP fun i => decide (i.val < n) && decide (p.InRange i)

theorem coversLine_eq (p : Ppu) (i : Fin 64) :
    (Sprite.ofMemory p.sprites i).coversLine p.control.spriteHeight p.beam.line =
      decide (p.InRange i) :=
  rfl

theorem mem_drawn_iff (p : Ppu) (i : Fin 64) :
    i ∈ (spritesOn p.sprites p.control.spriteHeight p.beam.line).take 8 ↔
      p.InRange i ∧ p.inRangeAmong i < 8 := by
  rw [spritesOn, mem_take_filter_iff, coversLine_eq, decide_eq_true_eq]
  rfl

theorem length_spritesOn (p : Ppu) :
    (spritesOn p.sprites p.control.spriteHeight p.beam.line).length = p.inRangeAmong 64 := by
  rw [spritesOn, ← List.countP_eq_length_filter]
  refine List.countP_congr fun i _ => ?_
  rw [coversLine_eq, decide_eq_true i.isLt, Bool.true_and]

variable {γ : Type} [PictureBus γ] (p : Ppu) (cart : γ)

/-- What a sprite has in a column that it covers on the beam's line. -/
def spritePixel (column : Nat) (i : Fin 64) : SpritePixel :=
  let s := Sprite.ofMemory p.sprites i
  { pixel := .ofNat <|
      s.pixelAt (PictureBus.chrRead cart) p.control (p.beam.line - s.y.toNat) (column - s.x.toNat)
    palette := s.palette
    behind := s.behind
    isFirst := i.val == 0 }

/-- A sprite shows something in a column: it is one of the first eight in range, and it covers the
column with a pixel that is not zero. -/
structure Shows (column : Nat) (i : Fin 64) : Prop where
  /-- It has a row for the line. -/
  inRange : p.InRange i
  /-- It is one of the first eight. -/
  drawn : p.inRangeAmong i < 8
  /-- It starts at the column or before it. -/
  left : (Sprite.ofMemory p.sprites i).x.toNat ≤ column
  /-- It ends at the column or after it. -/
  right : column < (Sprite.ofMemory p.sprites i).x.toNat + 8
  /-- Its pixel there is not zero. -/
  visible :
    (Sprite.ofMemory p.sprites i).pixelAt (PictureBus.chrRead cart) p.control
      (p.beam.line - (Sprite.ofMemory p.sprites i).y.toNat)
      (column - (Sprite.ofMemory p.sprites i).x.toNat) ≠ 0

theorem shows_iff_drawn (column : Nat) (i : Fin 64) :
    p.Shows cart column i ↔
      i ∈ (spritesOn p.sprites p.control.spriteHeight p.beam.line).take 8 ∧
        (p.entry? cart column i).isSome = true := by
  rw [mem_drawn_iff, isSome_entry?]
  constructor
  · rintro ⟨hrange, hdrawn, hleft, hright, hvisible⟩
    exact ⟨⟨hrange, hdrawn⟩, hleft, hright, hvisible⟩
  · rintro ⟨⟨hrange, hdrawn⟩, hleft, hright, hvisible⟩
    exact ⟨hrange, hdrawn, hleft, hright, hvisible⟩

theorem eq_spritePixel_of_entry? {column : Nat} {i : Fin 64} {e : SpritePixel}
    (h : p.entry? cart column i = some e) : e = p.spritePixel cart column i := by
  obtain ⟨-, rfl⟩ := SpriteLine.show?_eq_some_iff.1 h
  simp only [spritePixel, ← Sprite.toNat_pixel_patternAddr, UInt8.ofNat_toNat]

/-- **The sprites of a line.**  In every column one sees the sprite with the lowest number, of the
first eight that are in range, whose pixel there is not zero, and nothing if there is none; the
flag is raised if at least nine are in range.  Nothing else changes. -/
theorem sprites_drawn :
    (∀ (column : Nat) (h : column < 256),
      (∃ i, p.Shows cart column i ∧ (∀ j < i, ¬p.Shows cart column j) ∧
        (p.drawSprites cart).spriteLine[column] = p.spritePixel cart column i) ∨
      ((∀ i, ¬p.Shows cart column i) ∧ (p.drawSprites cart).spriteLine[column] = {})) ∧
    (p.drawSprites cart).status.overflow =
      (p.status.overflow || decide (9 ≤ p.inRangeAmong 64)) ∧
    p.drawSprites cart =
      { p with
        spriteLine := (p.drawSprites cart).spriteLine
        status := { p.status with overflow := (p.drawSprites cart).status.overflow } } := by
  refine ⟨fun column h => ?_, ?_, rfl⟩
  · rw [getElem_spriteLine_drawSprites p cart h]
    have hsorted := pairwise_take_filter
      (fun i => (Sprite.ofMemory p.sprites i).coversLine p.control.spriteHeight p.beam.line) 8
    have hshows := p.shows_iff_drawn cart column
    rw [spritesOn] at hshows ⊢
    generalize ((List.finRange 64).filter _).take 8 = drawn at hsorted hshows ⊢
    cases hfind : drawn.findSome? (p.entry? cart column) with
    | none =>
      refine .inr ⟨fun i hi => ?_, rfl⟩
      obtain ⟨hdrawn, hsome⟩ := (hshows i).1 hi
      rw [List.findSome?_eq_none_iff.1 hfind i hdrawn] at hsome
      exact Bool.noConfusion hsome
    | some e =>
      obtain ⟨before, i, after, rfl, he, hbefore⟩ := List.findSome?_eq_some_iff.1 hfind
      refine .inl ⟨i, (hshows i).2 ⟨by simp, by rw [he]; rfl⟩, fun j hj hshown => ?_,
        p.eq_spritePixel_of_entry? cart he⟩
      -- A sprite with a lower number that is drawn comes before this one, and shows nothing.
      obtain ⟨hdrawn, hsome⟩ := (hshows j).1 hshown
      obtain ⟨-, hafter, -⟩ := List.pairwise_append.1 hsorted
      obtain hfront | rfl | hback := by simpa only [List.mem_append, List.mem_cons] using hdrawn
      · rw [hbefore j hfront] at hsome
        exact Bool.noConfusion hsome
      · exact lt_irrefl j hj
      · exact lt_asymm hj ((List.pairwise_cons.1 hafter).1 j hback)
  · simp only [drawSprites, length_spritesOn]
    rfl

end Nes.Ppu
