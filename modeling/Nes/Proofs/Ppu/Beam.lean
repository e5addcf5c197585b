import Nes.Ppu.Beam
import Mathlib.Tactic.SplitIfs

/-!
# The way of the beam

The beam stays within the frame (`Beam.InFrame`) and goes through it dot by dot and line by line,
with one dot left out of every second frame.  So the dots until the next vertical blank
(`Beam.toBlank`) count down with every dot, by one or, where the dot is left out, by two
(`Beam.toBlank_advance`), and start again from a whole frame when the blank has started
(`Beam.toBlank_advance_of_entersVblank`).
-/

namespace Nes.Ppu.Beam

/-- The beam is on one of the dots of one of the lines. -/
structure InFrame (b : Beam) : Prop where
  /-- The line is one of the frame. -/
  line_lt : b.line < linesPerFrame
  /-- The dot is one of the line. -/
  dot_lt : b.dot < dotsPerLine

/-- The beam goes one dot on, or to the next line from the last dot or the one before it. -/
theorem advance_cases (b : Beam) (r : Bool) :
    b.dot + 1 < dotsPerLine ∧ b.advance r = { b with dot := b.dot + 1 } ∨
      (dotsPerLine ≤ b.dot + 1 ∨ b.line = preRenderLine ∧ b.dot + 2 = dotsPerLine) ∧
        b.advance r = b.nextLine := by
  unfold advance
  split_ifs with h
  · refine Or.inr ⟨?_, rfl⟩
    rw [Bool.or_eq_true, decide_eq_true_eq] at h
    rcases h with h | h
    · simp only [skipsDot, preRender, Bool.and_eq_true, beq_iff_eq] at h
      refine Or.inr ⟨h.1.1.1, ?_⟩
      have := h.1.1.2
      simp only [dotsPerLine] at this ⊢
      omega
    · exact Or.inl h
  · rw [Bool.or_eq_true, decide_eq_true_eq, not_or, Nat.not_le] at h
    exact Or.inl ⟨h.2, rfl⟩

/-- Before the end of a line the beam goes one dot on. -/
theorem advance_of_lt {b : Beam} (r : Bool) (h : b.dot + 2 < dotsPerLine) :
    b.advance r = { b with dot := b.dot + 1 } := by
  rcases b.advance_cases r with ⟨_, he⟩ | ⟨hend, _⟩
  · exact he
  · omega

theorem nextLine_dot (b : Beam) : b.nextLine.dot = 0 := by
  unfold nextLine
  split <;> rfl

theorem nextLine_line (b : Beam) :
    b.nextLine.line = if b.line + 1 = linesPerFrame then 0 else b.line + 1 := by
  unfold nextLine
  split <;> rfl

theorem InFrame.advance {b : Beam} (h : b.InFrame) (r : Bool) : (b.advance r).InFrame := by
  have hline := h.line_lt
  rcases b.advance_cases r with ⟨hdot, he⟩ | ⟨_, he⟩
  · rw [he]
    exact ⟨hline, hdot⟩
  · rw [he]
    refine ⟨?_, by rw [nextLine_dot]; decide⟩
    rw [nextLine_line]
    split_ifs with hlast
    · decide
    · omega

/-- The dots from the start of the frame. -/
def position (b : Beam) : Nat := b.line * dotsPerLine + b.dot

/-- The dots until the vertical blank starts, if none is left out. -/
def toBlank (b : Beam) : Nat :=
  if b.position ≤ 82182 then 82182 - b.position else 171524 - b.position

theorem toBlank_cases (b : Beam) :
    b.position ≤ 82182 ∧ b.toBlank = 82182 - b.position ∨
      82182 < b.position ∧ b.toBlank = 171524 - b.position := by
  by_cases h : b.position ≤ 82182
  · exact Or.inl ⟨h, if_pos h⟩
  · exact Or.inr ⟨Nat.lt_of_not_le h, if_neg h⟩

theorem entersVblank_iff {b : Beam} : b.entersVblank = true ↔ b.line = 241 ∧ b.dot = 1 := by
  simp only [entersVblank, vblankLine, Bool.and_eq_true, beq_iff_eq]

theorem drawing_iff {b : Beam} :
    b.drawing = true ↔ b.line < 240 ∧ 1 ≤ b.dot ∧ b.dot ≤ 256 := by
  rw [drawing, Bool.and_eq_true, Bool.and_eq_true, and_assoc]
  exact and_congr decide_eq_true_iff (and_congr decide_eq_true_iff decide_eq_true_iff)

theorem entersVblank_iff_toBlank {b : Beam} (h : b.InFrame) :
    b.entersVblank = true ↔ b.toBlank = 0 := by
  have hline : b.line < 262 := h.line_lt
  have hdot : b.dot < 341 := h.dot_lt
  have hblank := b.toBlank_cases
  rw [entersVblank_iff]
  simp only [position, dotsPerLine] at hblank
  omega

theorem nextLine_frames (b : Beam) :
    b.nextLine.frames = if b.line + 1 = linesPerFrame then b.frames + 1 else b.frames := by
  unfold nextLine
  split <;> rfl

/-- The line, dot and frame of the beam after a dot, as numbers: the cases of `advance_cases` with
the start of a frame told apart. -/
theorem advance_place (b : Beam) (r : Bool) :
    b.dot < 340 ∧ (b.advance r).line = b.line ∧ (b.advance r).dot = b.dot + 1 ∧
        (b.advance r).frames = b.frames ∨
      (340 ≤ b.dot ∨ b.line = 261 ∧ b.dot = 339) ∧ (b.advance r).dot = 0 ∧
        (b.line = 261 ∧ (b.advance r).line = 0 ∧ (b.advance r).frames = b.frames + 1 ∨
          b.line ≠ 261 ∧ (b.advance r).line = b.line + 1 ∧ (b.advance r).frames = b.frames) := by
  rcases b.advance_cases r with ⟨hdot, he⟩ | ⟨hend, he⟩
  · rw [he]
    exact Or.inl ⟨Nat.lt_of_succ_lt_succ hdot, rfl, rfl, rfl⟩
  · rw [he, nextLine_dot, nextLine_line, nextLine_frames]
    simp only [dotsPerLine, preRenderLine] at hend
    refine Or.inr ⟨by omega, rfl, ?_⟩
    by_cases hlast : b.line + 1 = linesPerFrame
    · exact Or.inl ⟨Nat.succ.inj hlast, if_pos hlast, if_pos hlast⟩
    · exact Or.inr ⟨fun h => hlast (congrArg Nat.succ h), if_neg hlast, if_neg hlast⟩

/-- The line and dot alone. -/
theorem advance_line_dot (b : Beam) (r : Bool) :
    b.dot < 340 ∧ (b.advance r).line = b.line ∧ (b.advance r).dot = b.dot + 1 ∨
      (340 ≤ b.dot ∨ b.line = 261 ∧ b.dot = 339) ∧ (b.advance r).dot = 0 ∧
        (b.line = 261 ∧ (b.advance r).line = 0 ∨
          b.line ≠ 261 ∧ (b.advance r).line = b.line + 1) := by
  rcases b.advance_place r with ⟨hdot, hl, hd, _⟩ | ⟨hend, hd, ⟨h261, hl, _⟩ | ⟨h261, hl, _⟩⟩
  · exact Or.inl ⟨hdot, hl, hd⟩
  · exact Or.inr ⟨hend, hd, Or.inl ⟨h261, hl⟩⟩
  · exact Or.inr ⟨hend, hd, Or.inr ⟨h261, hl⟩⟩

/-- Until the blank starts, a dot brings it nearer by one, or by two where a dot is left out. -/
theorem toBlank_advance {b : Beam} (h : b.InFrame) (r : Bool) (he : b.entersVblank = false) :
    (b.advance r).toBlank < b.toBlank ∧ b.toBlank ≤ (b.advance r).toBlank + 2 := by
  have hline : b.line < 262 := h.line_lt
  have hdot : b.dot < 341 := h.dot_lt
  have hne : ¬(b.line = 241 ∧ b.dot = 1) := by
    rw [← entersVblank_iff, he]
    decide
  have hbefore := b.toBlank_cases
  have hafter := (b.advance r).toBlank_cases
  simp only [position, dotsPerLine] at hbefore hafter
  rcases b.advance_line_dot r with ⟨_, hl, hd⟩ | ⟨_, hd, ⟨_, hl⟩ | ⟨_, hl⟩⟩ <;>
    simp only [hl, hd] at hafter <;> omega

/-- When it has started, the next one is a frame away. -/
theorem toBlank_advance_of_entersVblank {b : Beam} (r : Bool) (he : b.entersVblank = true) :
    (b.advance r).toBlank = 89341 := by
  obtain ⟨hline, hdot⟩ := entersVblank_iff.1 he
  rw [advance_of_lt r (by rw [hdot]; decide), toBlank, position]
  simp only [hline, hdot]
  decide

end Nes.Ppu.Beam
