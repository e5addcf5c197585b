import Nes.Proofs.Ppu.Picture

/-!
# The line counter of a board and the lines of a picture

A picture unit that shows something tells the board, at one dot of each line of the picture and of
the line before the first one, that a line has been drawn.  How often it has done so is a function
of the place of the beam (`Beam.clocks`, `Beam.clocks_advance`).  A line counter that has been set
up counts these clocks and requests an interrupt with the one after as many as its latch says
(`LineCounter.pending_armed`).  Together they give the line on which the interrupt is first
requested, for every latch (`irq_armLines`).
-/

namespace Nes

namespace Ppu.Beam

/-- The place at which a line is clocked. -/
def AtClock (b : Beam) : Prop := (b.line < 240 ∨ b.line = 261) ∧ b.dot = 260

/-- How often lines have been clocked before the beam has come to its place. -/
def clocks (b : Beam) : Nat :=
  241 * b.frames + min b.line 240 + if (b.line < 240 ∨ b.line = 261) ∧ 260 < b.dot then 1 else 0

/-- The dots before the beam's place, if none is left out. -/
def elapsed (b : Beam) : Nat := 89342 * b.frames + b.position

/-- **The count goes up at the places where a line is clocked.** -/
theorem clocks_advance {b : Beam} (h : b.InFrame) (r : Bool) :
    b.AtClock ∧ (b.advance r).clocks = b.clocks + 1 ∨
      ¬b.AtClock ∧ (b.advance r).clocks = b.clocks := by
  have hline : b.line < 262 := h.line_lt
  unfold clocks AtClock
  rcases b.advance_place r with ⟨_, hl, hd, hf⟩ | ⟨_, hd, ⟨_, hl, hf⟩ | ⟨_, hl, hf⟩⟩ <;>
    rw [hf, hl, hd] <;> split_ifs <;> omega

theorem elapsed_advance {b : Beam} (h : b.InFrame) (r : Bool) :
    b.elapsed < (b.advance r).elapsed := by
  have hline : b.line < 262 := h.line_lt
  have hdot : b.dot < 341 := h.dot_lt
  unfold elapsed position dotsPerLine
  rcases b.advance_place r with ⟨_, hl, hd, hf⟩ | ⟨_, hd, ⟨_, hl, hf⟩ | ⟨_, hl, hf⟩⟩ <;>
    rw [hf, hl, hd] <;> omega

/-- Four frames have more lines than any latch counts. -/
theorem clocks_of_elapsed {b c : Beam} (hb : b.InFrame) (hc : c.InFrame)
    (h : b.elapsed + 4 * 89342 ≤ c.elapsed) : b.clocks + 256 ≤ c.clocks := by
  have hline : b.line < 262 := hb.line_lt
  have hline' : c.line < 262 := hc.line_lt
  have hdot' : c.dot < 341 := hc.dot_lt
  simp only [elapsed, position, dotsPerLine] at h
  unfold clocks
  split_ifs <;> omega

end Ppu.Beam

namespace Board

namespace LineCounter

/-- A counter that has been set up to request an interrupt. -/
def armed (latch : UInt8) : LineCounter := { latch, reload := true, enabled := true }

/-- A counter that has been started over, with some lines left. -/
def counting (latch counter : UInt8) : LineCounter :=
  { latch, counter, enabled := true, pending := counter == 0 }

theorem clock_armed (latch : UInt8) : (armed latch).clock = counting latch latch := by
  cases h : latch == 0 <;> simp [clock, armed, counting, h]

theorem clock_counting (latch : UInt8) {counter : UInt8} (h : counter ≠ 0) :
    (counting latch counter).clock = counting latch (counter - 1) := by
  have hne : (counter == 0) = false := beq_eq_false_iff_ne.2 h
  cases hnext : counter - 1 == 0 <;> simp [clock, counting, hne, hnext]

/-- With every clock a line less is left. -/
theorem iterate_clock_counting (latch counter : UInt8) {m : Nat} (hm : m ≤ counter.toNat) :
    ∃ left : UInt8, left.toNat = counter.toNat - m ∧
      clock^[m] (counting latch counter) = counting latch left := by
  induction m with
  | zero => exact ⟨counter, rfl, rfl⟩
  | succ m ih =>
    obtain ⟨left, hleft, hcount⟩ := ih (Nat.le_of_succ_le hm)
    have hpos : 1 ≤ left.toNat := by omega
    have hne : left ≠ 0 := fun h => by simp [h] at hpos
    refine ⟨left - 1, ?_, ?_⟩
    · have hle : (1 : UInt8) ≤ left := UInt8.le_iff_toNat_le.2 hpos
      rw [UInt8.toNat_sub_of_le _ _ hle, hleft]
      exact Nat.sub_sub ..
    · rw [Function.iterate_succ_apply', hcount, clock_counting latch hne]

/-- A request is not withdrawn by a clock. -/
theorem pending_clock {c : LineCounter} (h : c.pending = true) : c.clock.pending = true := by
  unfold clock
  dsimp only
  split_ifs <;> first | rfl | exact h

theorem pending_iterate_clock {c : LineCounter} (h : c.pending = true) (m : Nat) :
    (clock^[m] c).pending = true := by
  induction m with
  | zero => exact h
  | succ m ih =>
    rw [Function.iterate_succ_apply']
    exact pending_clock ih

/-- **The interrupt is requested by the clock after as many as the latch says.** -/
theorem pending_armed (latch : UInt8) (m : Nat) :
    (clock^[m] (armed latch)).pending = true ↔ latch.toNat < m := by
  cases m with
  | zero => exact iff_of_false Bool.false_ne_true (Nat.not_lt_zero _)
  | succ m =>
    rw [Function.iterate_succ_apply, clock_armed, Nat.lt_succ_iff]
    rcases Nat.le_total m latch.toNat with hm | hm
    · obtain ⟨left, hleft, hcount⟩ := iterate_clock_counting latch latch hm
      have hzero : left = 0 ↔ left.toNat = 0 := UInt8.toNat_inj.symm
      rw [hcount, counting, beq_iff_eq, hzero, hleft]
      omega
    · obtain ⟨left, hleft, hcount⟩ := iterate_clock_counting latch latch (Nat.le_refl latch.toNat)
      have hzero : left = 0 := UInt8.toNat_inj.1 (by rw [hleft]; exact Nat.sub_self _)
      obtain ⟨rest, rfl⟩ := Nat.exists_eq_add_of_le' hm
      rw [Function.iterate_add_apply, hcount]
      refine iff_of_true (pending_iterate_clock ?_ rest) hm
      rw [hzero]
      rfl

end LineCounter

end Board

namespace Ppu

open Board

/-! ### The picture unit and the board -/

/-- The dots of the picture unit clock the lines of its board. -/
theorem clocksLine_iff {p : Ppu} (hr : p.mask.rendering = true) :
    p.clocksLine = true ↔ p.beam.AtClock := by
  rw [clocksLine, rendersLine, hr, Bool.true_and, Bool.and_eq_true, Bool.or_eq_true]
  exact and_congr (or_congr decide_eq_true_iff beq_iff_eq) beq_iff_eq

/-- What the dots from a place of the beam on have made of the board's counter. -/
structure Counted (q : Ppu × Board) (s : Mmc3) (start : Nat) : Prop where
  /-- Something is shown. -/
  rendering : q.1.mask.rendering = true
  /-- The beam is in the frame. -/
  inFrame : q.1.beam.InFrame
  /-- It has not gone back. -/
  start_le : start ≤ q.1.beam.clocks
  /-- The counter has been clocked with every line since. -/
  chip : q.2.chip =
    .mmc3 { s with lines := LineCounter.clock^[q.1.beam.clocks - start] s.lines }

theorem Counted.dot {q : Ppu × Board} {s : Mmc3} {start : Nat} (h : Counted q s start) :
    Counted (dot q) s start := by
  have hbeam := beam_dot q
  have hstart := h.start_le
  have hchip : (Ppu.dot q).2.chip =
      if q.1.clocksLine then q.2.chip.clockLine else q.2.chip := by
    rw [Ppu.dot, tickWith]
    split
    · change q.2.clockLine.chip = _
      rw [Board.clockLine, h.chip]
    · rfl
  have hcases := Beam.clocks_advance h.inFrame q.1.mask.rendering
  rw [← hbeam] at hcases
  refine ⟨(congrArg (·.mask.rendering) (setting_tick q.1 q.2)).trans h.rendering, ?_, by omega, ?_⟩
  · rw [hbeam]
    exact h.inFrame.advance _
  rcases hcases with ⟨hat, hclocks⟩ | ⟨hat, hclocks⟩
  · rw [hchip, if_pos ((clocksLine_iff h.rendering).2 hat), h.chip, hclocks,
      Nat.sub_add_comm hstart, Function.iterate_succ_apply']
    rfl
  · rw [hchip, if_neg fun hc => hat ((clocksLine_iff h.rendering).1 hc), h.chip, hclocks]

theorem Counted.dots {q : Ppu × Board} {s : Mmc3} {start : Nat} (h : Counted q s start) (i : Nat) :
    Counted (Ppu.dot^[i] q) s start ∧
      q.1.beam.elapsed + i ≤ (Ppu.dot^[i] q).1.beam.elapsed := by
  induction i with
  | zero => exact ⟨h, Nat.le_refl _⟩
  | succ i ih =>
    obtain ⟨hcounted, helapsed⟩ := ih
    rw [Function.iterate_succ_apply']
    refine ⟨hcounted.dot, ?_⟩
    rw [beam_dot]
    exact Nat.le_trans (Nat.succ_le_succ helapsed) (Beam.elapsed_advance hcounted.inFrame _)

/-- A counter that has been set up requests the interrupt once it has been clocked more often than
its latch says. -/
theorem Counted.irq_iff {q : Ppu × Board} {s : Mmc3} {start : Nat} {latch : UInt8}
    (h : Counted q { s with lines := .armed latch } start) :
    q.2.irq = true ↔ start + latch.toNat < q.1.beam.clocks := by
  have hle := h.start_le
  rw [Board.irq, h.chip]
  refine (LineCounter.pending_armed latch _).trans ?_
  omega

/-- With a counter that has been set up, the interrupt is first requested at the place where a line
is clocked after as many others as the latch says. -/
theorem Counted.exists_irq {q : Ppu × Board} {s : Mmc3} {latch : UInt8}
    (h : Counted q { s with lines := .armed latch } q.1.beam.clocks) :
    ∃ n, (∀ i ≤ n, (Ppu.dot^[i] q).2.irq = false) ∧ (Ppu.dot^[n + 1] q).2.irq = true ∧
      (Ppu.dot^[n] q).1.beam.AtClock ∧
      (Ppu.dot^[n] q).1.beam.clocks = q.1.beam.clocks + latch.toNat := by
  have hlatch := latch.toNat_lt
  have hirq (i : Nat) : (Ppu.dot^[i] q).2.irq = true ↔
      q.1.beam.clocks + latch.toNat < (Ppu.dot^[i] q).1.beam.clocks := (h.dots i).1.irq_iff
  have hexists : ∃ i, (Ppu.dot^[i] q).2.irq = true := by
    obtain ⟨hcounted, helapsed⟩ := h.dots (4 * 89342)
    have hmany := Beam.clocks_of_elapsed h.inFrame hcounted.inFrame helapsed
    exact ⟨4 * 89342, (hirq _).2 (Nat.lt_of_lt_of_le (by omega) hmany)⟩
  have hfound := (hirq _).1 (Nat.find_spec hexists)
  have hbefore (i : Nat) (hi : i < Nat.find hexists) : (Ppu.dot^[i] q).2.irq = false :=
    Bool.not_eq_true _ ▸ Nat.find_min hexists hi
  generalize Nat.find hexists = found at hfound hbefore
  obtain _ | n := found
  -- At the start nothing has been counted.
  · exact absurd hfound (Nat.not_lt.2 (Nat.le_add_right ..))
  have hlast : ¬q.1.beam.clocks + latch.toNat < (Ppu.dot^[n] q).1.beam.clocks := by
    rw [← hirq, hbefore n (Nat.lt_succ_self n)]
    exact Bool.false_ne_true
  have hnext : (Ppu.dot^[n + 1] q).1.beam = _ :=
    (congrArg (·.1.beam) (Function.iterate_succ_apply' Ppu.dot n q)).trans (beam_dot _)
  rw [hnext] at hfound
  refine ⟨n, fun i hi => hbefore i (Nat.lt_succ_of_le hi), (hirq _).2 (hnext ▸ hfound), ?_⟩
  -- The dot that brought the request has clocked a line.
  rcases Beam.clocks_advance (h.dots n).1.inFrame (Ppu.dot^[n] q).1.mask.rendering with
    ⟨hat, hclocks⟩ | ⟨_, hclocks⟩
  · exact ⟨hat, by omega⟩
  · omega

/-- The writes that set up an interrupt by the line counter: the latch, a reload, the end of what
was requested before, and the permission. -/
def armLines (b : Board) (latch v v' v'' : UInt8) : Board :=
  (((b.prgWrite 0xC000 latch).prgWrite 0xC001 v).prgWrite 0xE000 v').prgWrite 0xE001 v''

theorem chip_armLines {b : Board} {s : Mmc3} (hchip : b.chip = .mmc3 s) (latch v v' v'' : UInt8) :
    (armLines b latch v v' v'').chip = .mmc3 { s with lines := .armed latch } := by
  simp only [armLines, Board.prgWrite]
  rw [if_pos (by decide), if_pos (by decide), if_pos (by decide), if_pos (by decide)]
  simp only [hchip]
  rfl

/-- **The line of the interrupt.**  A program that sets up the line counter of its board during the
vertical blank, while something is shown, gets the interrupt at the dot at which a line is clocked:
with the latch zero on the line before the first one, with a latch up to 240 on the line of the
picture that has one less as its number, and with a greater one in the picture after that, again
from the line before the first one on. -/
theorem irq_armLines (p : Ppu) (b : Board) {s : Mmc3} (hchip : b.chip = .mmc3 s)
    (hline : 241 ≤ p.beam.line ∧ p.beam.line ≤ 260) (hdot : p.beam.dot < 341)
    (hrendering : p.mask.rendering = true) (latch v v' v'' : UInt8) :
    let start : Ppu × Board := (p, armLines b latch v v' v'')
    ∃ n, (∀ i ≤ n, (Ppu.dot^[i] start).2.irq = false) ∧ (Ppu.dot^[n + 1] start).2.irq = true ∧
      (Ppu.dot^[n] start).1.beam.dot = 260 ∧
      (latch.toNat = 0 → (Ppu.dot^[n] start).1.beam.line = 261 ∧
        (Ppu.dot^[n] start).1.beam.frames = p.beam.frames) ∧
      (1 ≤ latch.toNat → latch.toNat ≤ 240 →
        (Ppu.dot^[n] start).1.beam.line = latch.toNat - 1 ∧
        (Ppu.dot^[n] start).1.beam.frames = p.beam.frames + 1) ∧
      (latch.toNat = 241 → (Ppu.dot^[n] start).1.beam.line = 261 ∧
        (Ppu.dot^[n] start).1.beam.frames = p.beam.frames + 1) ∧
      (242 ≤ latch.toNat → (Ppu.dot^[n] start).1.beam.line = latch.toNat - 242 ∧
        (Ppu.dot^[n] start).1.beam.frames = p.beam.frames + 2) := by
  intro start
  have hlatch := latch.toNat_lt
  have hstart : Counted start { s with lines := .armed latch } p.beam.clocks := by
    refine ⟨hrendering, ⟨by change p.beam.line < 262; omega, hdot⟩, Nat.le_refl _, ?_⟩
    rw [Nat.sub_self]
    exact chip_armLines hchip latch v v' v''
  obtain ⟨n, hbefore, hirq, hat, hclocks⟩ := hstart.exists_irq
  refine ⟨n, hbefore, hirq, hat.2, ?_⟩
  generalize (Ppu.dot^[n] start).1.beam = place at hat hclocks
  change place.clocks = p.beam.clocks + latch.toNat at hclocks
  obtain ⟨hlines, h260⟩ := hat
  rw [Beam.clocks, Beam.clocks, if_neg (by omega), if_neg (by omega)] at hclocks
  omega

/-- The greatest latch asks for a line of the second picture. -/
theorem irq_armLines_last :
    let p : Ppu := { powerOn with mask := ⟨0x10⟩, beam := { line := 250, dot := 7 } }
    let b : Board :=
      { prgRom := #[0xEA], chr := #[0xFF], chrIsRam := false, prgRam := .replicate _ 0,
        wired := .vertical
        chip := .mmc3 { Mmc3.powerOn .vertical with lines := { counter := 3, pending := true } } }
    ∃ n, (∀ i ≤ n, (Ppu.dot^[i] (p, armLines b 255 0 0 0)).2.irq = false) ∧
      (Ppu.dot^[n + 1] (p, armLines b 255 0 0 0)).2.irq = true ∧
      (Ppu.dot^[n] (p, armLines b 255 0 0 0)).1.beam.dot = 260 ∧
      (Ppu.dot^[n] (p, armLines b 255 0 0 0)).1.beam.line = 13 ∧
      (Ppu.dot^[n] (p, armLines b 255 0 0 0)).1.beam.frames = 2 := by
  intro p b
  obtain ⟨n, hbefore, hirq, hdot, -, -, -, hlast⟩ :=
    irq_armLines p b rfl (by decide) (by decide) (by decide) 255 0 0 0
  exact ⟨n, hbefore, hirq, hdot, hlast (by decide)⟩

end Ppu

end Nes
