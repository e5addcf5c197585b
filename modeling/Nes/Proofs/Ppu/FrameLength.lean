import Nes.Proofs.Ppu.LineClock
import Nes.Proofs.Ppu.Strokes
import Mathlib.Data.List.Nodup

/-!
# The length of a frame

The beam visits the places of a frame in order, each of them once (`Visit`, `Ppu.visits`).  A frame
has 89342 places, of which the last one is left out if the number of the frame is odd and something
is shown at the dot before (`Visit.drops`).  The mask may be written at any time, so that nothing
but that one dot decides.

What a run visits is therefore told by the numbers of its frames and by which of them are short
(`Ppu.visits_walk`), and so is the number of its dots.  The blank's flag is set at one place of
every frame, and the flags are clear when another one has been passed (`Ppu.frame_law`).
-/

namespace Nes.Ppu

/-! ### A step of the beam -/

namespace Beam

/-- The places of a frame. -/
def frameDots (short : Bool) : Nat := if short then 89341 else 89342

/-- The place with a number within a frame, which has a number too. -/
def place (frame i : Nat) : Nat × Nat × Nat := (frame, i / 341, i % 341)

/-- The places of a frame in the order in which the beam visits them. -/
def framePlaces (frame : Nat) (short : Bool) : List (Nat × Nat × Nat) :=
  (List.range (frameDots short)).map (place frame)

/-- The beam is where a frame begins. -/
def AtTop (b : Beam) : Prop := b.line = 0 ∧ b.dot = 0

/-- The short frames are those with odd numbers. -/
def Numbered (b : Beam) : Prop := b.oddFrame = (b.frames % 2 == 1)

theorem place_position {b : Beam} (h : b.InFrame) :
    place b.frames b.position = (b.frames, b.line, b.dot) := by
  have hdot : b.dot < 341 := h.dot_lt
  simp only [place, position, dotsPerLine, Prod.mk.injEq, true_and]
  omega

theorem Numbered.advance {b : Beam} (h : b.Numbered) (r : Bool) : (b.advance r).Numbered := by
  rcases b.advance_cases r with ⟨-, he⟩ | ⟨-, he⟩
  · rw [he]
    exact h
  · rw [he, nextLine]
    split
    · have hodd : b.oddFrame = (b.frames % 2 == 1) := h
      have hflip : (b.frames + 1) % 2 = 1 ↔ ¬b.frames % 2 = 1 := by omega
      simp only [Numbered, hodd, beq_eq_decide, hflip, decide_not]
    · exact h

theorem position_iff {b : Beam} (h : b.InFrame) :
    b.position = 89340 ↔ b.line = 261 ∧ b.dot = 339 := by
  have hdot : b.dot < 341 := h.dot_lt
  simp only [position, dotsPerLine]
  omega

theorem skipsDot_iff {b : Beam} (h : b.InFrame) (r : Bool) :
    b.skipsDot r = true ↔ b.position = 89340 ∧ (b.oddFrame && r) = true := by
  simp only [position_iff h, skipsDot, preRender, preRenderLine, dotsPerLine, Bool.and_eq_true,
    beq_iff_eq, and_assoc, Nat.reduceSub, Nat.reduceEqDiff]

theorem advance_of_skipsDot {b : Beam} {r : Bool} (h : b.skipsDot r = true) :
    b.advance r = b.nextLine := by
  rw [Beam.advance, h]
  rfl

/-- A step of the beam, where no dot is left out, leads to the next place. -/
theorem elapsed_advance_of_not_skipsDot {b : Beam} (hb : b.InFrame) {r : Bool}
    (h : b.skipsDot r = false) :
    b.position < 89341 ∧ (b.advance r).frames = b.frames ∧
        (b.advance r).position = b.position + 1 ∨
      b.position = 89341 ∧ (b.advance r).frames = b.frames + 1 ∧ (b.advance r).position = 0 := by
  have hline : b.line < 262 := hb.line_lt
  have hdot : b.dot < 341 := hb.dot_lt
  by_cases hlast : dotsPerLine ≤ b.dot + 1
  · have he : b.advance r = b.nextLine := by simp [Beam.advance, hlast]
    simp only [dotsPerLine] at hlast
    rw [he, nextLine_frames, position, position, nextLine_line, nextLine_dot, linesPerFrame,
      dotsPerLine]
    split_ifs <;> omega
  · have he : b.advance r = { b with dot := b.dot + 1 } := by simp [Beam.advance, h, hlast]
    simp only [dotsPerLine] at hlast
    simp only [he, position, dotsPerLine]
    exact Or.inl ⟨by omega, trivial, by omega⟩

/-- **A step of the beam** goes to the next place of the frame, or from the last one to the first
one of the next frame. -/
theorem Numbered.walk {b : Beam} (hb : b.InFrame) (h : b.Numbered) (r : Bool) {short : Bool}
    (hshort : b.position = 89340 → short = (b.frames % 2 == 1 && r))
    (hi : b.position < frameDots short) :
    b.position + 1 < frameDots short ∧ (b.advance r).frames = b.frames ∧
        (b.advance r).position = b.position + 1 ∨
      b.position + 1 = frameDots short ∧ (b.advance r).frames = b.frames + 1 ∧
        (b.advance r).position = 0 := by
  have hodd : b.oddFrame = (b.frames % 2 == 1) := h
  rw [← hodd] at hshort
  cases hskip : b.skipsDot r with
  | true =>
    obtain ⟨hposition, hdrops⟩ := (skipsDot_iff hb r).1 hskip
    have hline : b.line + 1 = linesPerFrame := by
      have hdot : b.dot < 341 := hb.dot_lt
      simp only [position, dotsPerLine] at hposition
      simp only [linesPerFrame]
      omega
    rw [hshort hposition, hdrops, hposition, advance_of_skipsDot hskip, nextLine_frames, position,
      nextLine_line, nextLine_dot, if_pos hline, if_pos hline]
    exact Or.inr ⟨rfl, rfl, rfl⟩
  | false =>
    have hlong : b.position = 89340 → frameDots short = 89342 := fun hposition => by
      have hdrops : (b.oddFrame && r) = false := by
        rw [← Bool.not_eq_true]
        intro hdrops
        exact Bool.noConfusion (hskip.symm.trans ((skipsDot_iff hb r).2 ⟨hposition, hdrops⟩))
      rw [hshort hposition, hdrops]
      rfl
    have hdots : frameDots short = 89341 ∨ frameDots short = 89342 := by
      cases short <;> decide
    rcases elapsed_advance_of_not_skipsDot hb hskip with ⟨_, hf, hp⟩ | ⟨_, hf, hp⟩
    · exact Or.inl ⟨by omega, hf, hp⟩
    · exact Or.inr ⟨by omega, hf, hp⟩

end Beam

/-! ### What a run visits -/

/-- A dot that is drawn. -/
structure Visit where
  /-- The beam at the dot. -/
  beam : Beam
  /-- Something is shown. -/
  rendering : Bool

namespace Visit

/-- The number of the frame, the line and the dot. -/
def place (v : Visit) : Nat × Nat × Nat := (v.beam.frames, v.beam.line, v.beam.dot)

/-- The frame begins. -/
def atTop (v : Visit) : Bool := v.beam.line == 0 && v.beam.dot == 0

/-- The frame is one with an odd number, and something is shown at the dot before its last one. -/
def drops (v : Visit) : Bool :=
  v.beam.line == 261 && v.beam.dot == 339 && v.beam.frames % 2 == 1 && v.rendering

end Visit

/-- A frame of some that have been visited loses its last dot. -/
def shortFrame (visits : List Visit) (frame : Nat) : Bool :=
  visits.any fun v => v.beam.frames == frame && v.drops

variable {γ : Type}

/-- The operation resets the unit. -/
def Op.resets : Op γ → Bool
  | reset => true
  | _ => false

variable [PictureBus γ]

/-- The dots that some operations draw, the first one first. -/
def visits (p : Ppu) : List (Op γ) → List Visit
  | [] => []
  | op :: ops =>
    (if op.isTick then [⟨p.beam, p.mask.rendering⟩] else []) ++ (op.act p).visits ops

theorem length_visits (p : Ppu) (ops : List (Op γ)) :
    (p.visits ops).length = ops.countP Op.isTick := by
  induction ops generalizing p with
  | nil => rfl
  | cons op ops ih =>
    rw [visits, List.length_append, ih, List.countP_cons, Nat.add_comm]
    split <;> rfl

/-- Besides dots and resets, nothing touches the beam. -/
theorem beam_act_of_not_resets (p : Ppu) {op : Op γ} (htick : op.isTick = false)
    (hreset : op.resets = false) : (op.act p).beam = p.beam := by
  cases op with
  | tick cart => exact Bool.noConfusion htick
  | read cart number => exact congrArg Easel.beam (easel_readRegister p cart number)
  | write cart number v => exact congrArg Easel.beam (easel_writeRegister p cart number v)
  | sprites page => exact congrArg Easel.beam (easel_writeSprites p page)
  | takeFrame => rfl
  | poll => rfl
  | reset => exact Bool.noConfusion hreset

theorem numbered_powerOn : powerOn.beam.Numbered := rfl

theorem numbered_act {p : Ppu} (hp : p.beam.Numbered) {op : Op γ} (hop : op.resets = false) :
    (op.act p).beam.Numbered := by
  cases htick : op.isTick with
  | true =>
    obtain ⟨cart, rfl⟩ := Op.eq_tick htick
    rw [beam_act_tick]
    exact hp.advance _
  | false =>
    rw [beam_act_of_not_resets p htick hop]
    exact hp

theorem numbered_run {p : Ppu} (hp : p.beam.Numbered) {ops : List (Op γ)}
    (hops : ∀ op ∈ ops, op.resets = false) : (p.run ops).beam.Numbered := by
  induction ops generalizing p with
  | nil => exact hp
  | cons op ops ih =>
    rw [List.forall_mem_cons] at hops
    exact ih (numbered_act hp hops.1) hops.2

/-- The beam goes on along a run. -/
theorem elapsed_le_of_mem_visits {p : Ppu} (hp : Timely p) {ops : List (Op γ)} {v : Visit}
    (hv : v ∈ p.visits ops) : p.beam.elapsed ≤ v.beam.elapsed := by
  induction ops generalizing p with
  | nil => exact absurd hv List.not_mem_nil
  | cons op ops ih =>
    rw [visits, List.mem_append] at hv
    cases htick : op.isTick with
    | true =>
      obtain ⟨cart, rfl⟩ := Op.eq_tick htick
      have hless := Beam.elapsed_advance hp.inFrame p.mask.rendering
      rw [← beam_act_tick p cart] at hless
      rcases hv with hv | hv
      · rw [List.mem_singleton.1 hv]
      · exact Nat.le_of_lt (Nat.lt_of_lt_of_le hless (ih (hp.act _) hv))
    | false =>
      obtain ⟨oddFrame, hbeam⟩ := beam_act_of_not_isTick p htick
      rw [htick] at hv
      have hle := ih (hp.act op) (hv.resolve_left List.not_mem_nil)
      rw [hbeam] at hle
      exact hle

/-- No place of a frame is visited again. -/
theorem pairwise_visits {p : Ppu} (hp : Timely p) (ops : List (Op γ)) :
    (p.visits ops).Pairwise fun v w => v.beam.elapsed < w.beam.elapsed := by
  induction ops generalizing p with
  | nil => exact List.Pairwise.nil
  | cons op ops ih =>
    rw [visits]
    cases htick : op.isTick with
    | true =>
      obtain ⟨cart, rfl⟩ := Op.eq_tick htick
      have hless := Beam.elapsed_advance hp.inFrame p.mask.rendering
      rw [← beam_act_tick p cart] at hless
      exact List.pairwise_cons.2 ⟨fun w hw =>
        Nat.lt_of_lt_of_le hless (elapsed_le_of_mem_visits (hp.act _) hw), ih (hp.act _)⟩
    | false => exact ih (hp.act op)

/-- The places of a frame before the beam. -/
def Beam.passed (b : Beam) : List (Nat × Nat × Nat) := (List.range b.position).map (place b.frames)

theorem Beam.passed_succ {b c : Beam} (hb : b.InFrame) (hframes : c.frames = b.frames)
    (hposition : c.position = b.position + 1) :
    c.passed = b.passed ++ [(b.frames, b.line, b.dot)] := by
  rw [passed, hframes, hposition, List.range_succ, List.map_append, ← place_position hb]
  rfl

theorem Beam.framePlaces_of_last {b : Beam} (hb : b.InFrame) {short : Bool}
    (hlast : b.position + 1 = frameDots short) :
    framePlaces b.frames short = b.passed ++ [(b.frames, b.line, b.dot)] := by
  rw [framePlaces, ← hlast, List.range_succ, List.map_append, ← place_position hb]
  rfl

/-- **What a run visits.**  With the places before the beam at its start, these are whole frames and
the places before the beam at its end.  A frame is short if the dot before its last one says so. -/
theorem visits_walk {p : Ppu} (hp : Timely p) (hodd : p.beam.Numbered) {ops : List (Op γ)}
    (hops : ∀ op ∈ ops, op.resets = false) {short : Nat → Bool}
    (hshort : ∀ v ∈ p.visits ops, v.beam.line = 261 ∧ v.beam.dot = 339 →
      short v.beam.frames = (v.beam.frames % 2 == 1 && v.rendering))
    (hi : p.beam.position < Beam.frameDots (short p.beam.frames)) :
    ∃ m, p.beam.passed ++ (p.visits ops).map Visit.place =
      (List.range' p.beam.frames m).flatMap (fun n => Beam.framePlaces n (short n)) ++
        (p.run ops).beam.passed := by
  induction ops generalizing p with
  | nil => exact ⟨0, List.append_nil _⟩
  | cons op ops ih =>
    rw [List.forall_mem_cons] at hops
    have hodd' := numbered_act hodd hops.1
    rw [visits, List.forall_mem_append] at hshort
    rw [run_cons, visits, List.map_append]
    cases htick : op.isTick with
    | false =>
      have hbeam := beam_act_of_not_resets p htick hops.1
      obtain ⟨m, hm⟩ := ih (hp.act op) hodd' hops.2 hshort.2 (hbeam ▸ hi)
      rw [hbeam] at hm
      exact ⟨m, hm⟩
    | true =>
      obtain ⟨cart, rfl⟩ := Op.eq_tick htick
      have hbeam := beam_act_tick p cart
      have hhere := fun h =>
        hshort.1 _ (List.mem_singleton.2 rfl) ((Beam.position_iff hp.inFrame).1 h)
      rw [if_pos rfl, ← List.append_assoc]
      rcases hodd.walk hp.inFrame p.mask.rendering hhere hi with
        ⟨hnext, hframes, hposition⟩ | ⟨hlast, hframes, hposition⟩
      · rw [← hbeam] at hframes hposition
        obtain ⟨m, hm⟩ := ih (hp.act _) hodd' hops.2 hshort.2
          (by rw [hframes, hposition]; exact hnext)
        rw [Beam.passed_succ hp.inFrame hframes hposition, hframes] at hm
        exact ⟨m, hm⟩
      · rw [← hbeam] at hframes hposition
        obtain ⟨m, hm⟩ := ih (hp.act _) hodd' hops.2 hshort.2
          (by rw [hposition]; cases short _ <;> decide)
        refine ⟨m + 1, ?_⟩
        rw [hframes, Beam.passed, hposition, List.range_zero, List.map_nil, List.nil_append] at hm
        rw [List.range'_succ, List.flatMap_cons, Beam.framePlaces_of_last hp.inFrame hlast, hm]
        simp only [List.append_assoc]
        rfl

/-- What decides on a short frame is what is seen at its dot before the last one. -/
theorem shortFrame_visits {p : Ppu} (hp : Timely p) {ops : List (Op γ)} {v : Visit}
    (hv : v ∈ p.visits ops) (hplace : v.beam.line = 261 ∧ v.beam.dot = 339) :
    shortFrame (p.visits ops) v.beam.frames = (v.beam.frames % 2 == 1 && v.rendering) := by
  have hnodup : ((p.visits ops).map (·.beam.elapsed)).Nodup :=
    (List.pairwise_map.2 (pairwise_visits hp ops)).imp Nat.ne_of_lt
  rw [Bool.eq_iff_iff, shortFrame, List.any_eq_true]
  constructor
  · rintro ⟨w, hw, hdrops⟩
    simp only [Visit.drops, Bool.and_eq_true, beq_iff_eq] at hdrops
    obtain ⟨hframes, ⟨⟨hline, hdot⟩, hodd⟩, hrendering⟩ := hdrops
    have helapsed : w.beam.elapsed = v.beam.elapsed := by
      simp only [Beam.elapsed, Beam.position, hframes, hline, hdot, hplace]
    rw [← List.inj_on_of_nodup_map hnodup hw hv helapsed, hodd, hrendering]
    rfl
  · intro h
    refine ⟨v, hv, ?_⟩
    simpa [Visit.drops, hplace] using h

/-! ### Whole frames -/

namespace Beam

theorem AtTop.passed {b : Beam} (h : b.AtTop) : b.passed = [] := by
  rw [Beam.passed, position, h.1, h.2]
  rfl

theorem length_framePlaces (frame : Nat) (short : Bool) :
    (framePlaces frame short).length = frameDots short := by
  rw [framePlaces, List.length_map, List.length_range]

/-- Each frame has one place at its top. -/
theorem countP_framePlaces (frame : Nat) (short : Bool) :
    (framePlaces frame short).countP (·.2 == (0, 0)) = 1 := by
  obtain ⟨k, hk⟩ : ∃ k, frameDots short = k + 1 :=
    Nat.exists_eq_succ_of_ne_zero (by cases short <;> decide)
  have hrest : ∀ i, ¬(place frame (i + 1)).2 = (0, 0) := by
    intro i
    simp only [place, Prod.mk.injEq]
    omega
  rw [framePlaces, hk, List.range_succ_eq_map, List.map_cons, List.countP_cons, List.map_map,
    List.countP_map, List.countP_eq_zero.2]
  · rfl
  · intro i _
    simpa using hrest i

theorem countP_flatMap_framePlaces (frames : List Nat) (short : Nat → Bool) :
    (frames.flatMap fun n => framePlaces n (short n)).countP (·.2 == (0, 0)) = frames.length := by
  induction frames with
  | nil => rfl
  | cons n frames ih =>
    rw [List.flatMap_cons, List.countP_append, ih, countP_framePlaces, List.length_cons,
      Nat.add_comm]

/-- Each short frame lacks one dot. -/
theorem length_flatMap_framePlaces (frames : List Nat) (short : Nat → Bool) :
    (frames.flatMap fun n => framePlaces n (short n)).length + frames.countP short =
      89342 * frames.length := by
  induction frames with
  | nil => rfl
  | cons n frames ih =>
    rw [List.flatMap_cons, List.length_append, length_framePlaces, List.countP_cons,
      List.length_cons, Nat.mul_succ, ← ih]
    have hdots : frameDots (short n) + (if short n then 1 else 0) = 89342 := by
      cases short n <;> rfl
    omega

end Beam

/-- **Between two tops** a run visits whole frames, one for each top. -/
theorem visits_frames {p : Ppu} (hp : Timely p) (hodd : p.beam.Numbered) {ops : List (Op γ)}
    (hops : ∀ op ∈ ops, op.resets = false) (hstart : p.beam.AtTop) (hend : (p.run ops).beam.AtTop) :
    (p.visits ops).map Visit.place =
      (List.range' p.beam.frames ((p.visits ops).countP Visit.atTop)).flatMap fun n =>
        Beam.framePlaces n (shortFrame (p.visits ops) n) := by
  obtain ⟨m, hm⟩ := visits_walk hp hodd hops (fun v hv => shortFrame_visits hp hv) (by
    rw [Beam.position, hstart.1, hstart.2]
    cases shortFrame _ _ <;> decide)
  rw [hstart.passed, hend.passed, List.nil_append, List.append_nil] at hm
  have htops : (p.visits ops).countP Visit.atTop = m := by
    have hcount := congrArg (List.countP (·.2 == (0, 0))) hm
    rw [List.countP_map, Beam.countP_flatMap_framePlaces, List.length_range'] at hcount
    exact hcount
  rw [htops, hm]

theorem Beam.atTop_of_position {b : Beam} (h : b.position = 0) : b.AtTop := by
  simp only [position, dotsPerLine] at h
  exact ⟨by omega, by omega⟩

/-- Dots alone lead to the next top. -/
theorem run_to_top {p : Ppu} (hp : Timely p) (hodd : p.beam.Numbered) (cart : γ) {n : Nat}
    (hpos : 0 < n)
    (hn : p.beam.position + n = Beam.frameDots (p.beam.frames % 2 == 1 && p.mask.rendering)) :
    (p.run (List.replicate n (.tick cart))).beam.AtTop ∧
      (p.run (List.replicate n (.tick cart))).beam.frames = p.beam.frames + 1 ∧
      (p.run (List.replicate n (.tick cart))).mask = p.mask := by
  induction n generalizing p with
  | zero => exact absurd hpos (Nat.lt_irrefl 0)
  | succ n ih =>
    have hmask : (p.tick cart).mask = p.mask := congrArg Setting.mask (setting_tick p cart)
    have hwalk := hodd.walk hp.inFrame p.mask.rendering (fun _ => rfl) (by omega)
    rw [← beam_tick p cart] at hwalk
    rw [List.replicate_succ, run_cons]
    rcases hwalk with ⟨hnext, hframes, hposition⟩ | ⟨hlast, hframes, hposition⟩
    · rw [← hframes, ← hmask]
      have hodd' : (p.tick cart).beam.Numbered := by
        rw [beam_tick]
        exact hodd.advance _
      refine ih (hp.tick cart) hodd' (by omega) ?_
      change (p.tick cart).beam.position + n =
        Beam.frameDots ((p.tick cart).beam.frames % 2 == 1 && (p.tick cart).mask.rendering)
      rw [hposition, hframes, hmask, ← hn]
      omega
    · obtain rfl : n = 0 := by omega
      exact ⟨Beam.atTop_of_position hposition, hframes, hmask⟩

/-! ### The flags -/

/-- Besides dots, nothing sets the flag of the blank. -/
theorem vblank_of_vblank_act {p : Ppu} {op : Op γ} (hop : op.isTick = false)
    (h : (op.act p).status.vblank = true) : p.status.vblank = true := by
  cases op with
  | tick cart => exact Bool.noConfusion hop
  | read cart number => exact (fades_readRegister p cart number).vblank h
  | write cart number v =>
    rcases alarm_writeRegister p cart number v with heq | heq
    · exact (Fades.of_alarm heq).vblank h
    · exact (Fades.of_alarm heq).vblank h
  | sprites page => exact (fades_writeSprites p page).vblank h
  | takeFrame => exact h
  | poll => exact h
  | reset => exact h

/-- The flag of the blank is set at one place. -/
theorem vblank_rises_iff {p : Ppu} (hp : Timely p) (op : Op γ) :
    p.status.vblank = false ∧ (op.act p).status.vblank = true ↔
      op.isTick = true ∧ p.beam.line = 241 ∧ p.beam.dot = 1 := by
  rw [← Beam.entersVblank_iff]
  cases htick : op.isTick with
  | false =>
    refine iff_of_false ?_ (fun h => Bool.noConfusion h.1)
    rintro ⟨hbefore, hafter⟩
    rw [vblank_of_vblank_act htick hafter] at hbefore
    exact Bool.noConfusion hbefore
  | true =>
    obtain ⟨cart, rfl⟩ := Op.eq_tick htick
    rw [Op.act, vblank_tick]
    cases he : p.beam.entersVblank with
    | true => exact iff_of_true ⟨hp.vblank_of_entersVblank he, rfl⟩ ⟨rfl, rfl⟩
    | false =>
      refine iff_of_false ?_ (fun h => Bool.noConfusion h.2)
      rintro ⟨hbefore, hafter⟩
      rw [hbefore, Bool.and_false] at hafter
      exact Bool.noConfusion hafter

theorem status_render_of_dot {p : Ppu} (cart : γ) (h : p.beam.dot ≠ 257) :
    (p.render cart).status = p.status := by
  obtain ⟨v, background, heq⟩ := fetchBackground_eq p cart
  have hdot : (p.beam.dot == 257) = false := beq_eq_false_iff_ne.2 h
  simp only [render, heq, hdot, Bool.false_eq_true, ↓reduceIte]
  split_ifs <;> rfl

/-- All flags end together. -/
theorem status_tick_of_endsFlags {p : Ppu} (cart : γ) (h : p.beam.line = 261 ∧ p.beam.dot = 1) :
    (p.tick cart).status = {} := by
  have hends : p.endsFlags = true := endsFlags_iff.2 h
  have hdrawing : p.beam.drawing = false := by
    rw [← Bool.not_eq_true, Beam.drawing_iff]
    omega
  have henters : p.beam.entersVblank = false := by
    rw [← Bool.not_eq_true, Beam.entersVblank_iff]
    omega
  simp only [tick_eq, painted, henters, hdrawing, Bool.false_eq_true, ↓reduceIte, prepared, hends]
  split
  · exact status_render_of_dot cart (by simp only; omega)
  · rfl

/-! ### The law of frames -/

/-- **The length of frames.**  A run that begins and ends where a frame begins, after any run from
power-on and without a reset, visits whole frames: each place of each frame once, in order, but for
the last one of the frames that have an odd number and show something at the dot before it.  So
many frames have 89342 dots each, less one for each of the short ones.

Whatever happened before, the flag of the blank is set by the dot at line 241 and dot 1 and by
nothing else, and all flags are clear after the dot at line 261 and dot 1. -/
theorem frame_law :
    (∀ before ops : List (Op γ), (∀ op ∈ before ++ ops, op.resets = false) →
      (powerOn.run before).beam.AtTop → (powerOn.run (before ++ ops)).beam.AtTop →
      let visits := (powerOn.run before).visits ops
      let frames := List.range' (powerOn.run before).beam.frames (visits.countP Visit.atTop)
      visits.map Visit.place =
          frames.flatMap (fun n => Beam.framePlaces n (shortFrame visits n)) ∧
        ops.countP Op.isTick + frames.countP (shortFrame visits) = 89342 * frames.length) ∧
    ∀ (before : List (Op γ)) (op : Op γ),
      let p := powerOn.run before
      (p.status.vblank = false ∧ (op.act p).status.vblank = true ↔
        op.isTick = true ∧ p.beam.line = 241 ∧ p.beam.dot = 1) ∧
      (op.isTick = true → p.beam.line = 261 → p.beam.dot = 1 → (op.act p).status = {}) := by
  refine ⟨?_, ?_⟩
  · intro before ops hops hstart hend visits frames
    rw [run_append] at hend
    have hodd : (powerOn.run before).beam.Numbered :=
      numbered_run numbered_powerOn fun op hop => hops op (List.mem_append_left ops hop)
    have hplaces := visits_frames (Timely.powerOn.run before) hodd
      (fun op hop => hops op (List.mem_append_right before hop)) hstart hend
    refine ⟨hplaces, ?_⟩
    rw [← length_visits (powerOn.run before), ← List.length_map Visit.place, hplaces]
    exact Beam.length_flatMap_framePlaces frames _
  · intro before op p
    refine ⟨vblank_rises_iff (Timely.powerOn.run before) op, fun htick hline hdot => ?_⟩
    obtain ⟨cart, rfl⟩ := Op.eq_tick htick
    exact status_tick_of_endsFlags cart ⟨hline, hdot⟩

/-- The first frame from its top on, with the background switched on there, is a short one. -/
theorem frame_law_short :
    let b : Board :=
      { prgRom := #[0xEA], chr := #[0xFF], chrIsRam := false, prgRam := .replicate _ 0,
        wired := .vertical, chip := .nrom }
    let before := List.replicate 341 (Op.tick b)
    let ops := Op.write b 1 0x08 :: List.replicate 89341 (Op.tick b)
    (∀ op ∈ before ++ ops, op.resets = false) ∧ (powerOn.run before).beam.AtTop ∧
      (powerOn.run (before ++ ops)).beam.AtTop ∧
      ((powerOn.run before).visits ops).map Visit.place = Beam.framePlaces 1 true := by
  intro b before ops
  have hops : ∀ op ∈ before ++ ops, op.resets = false := by
    simp only [before, ops, List.mem_append, List.mem_cons, List.mem_replicate]
    rintro op (⟨-, rfl⟩ | rfl | ⟨-, rfl⟩) <;> rfl
  obtain ⟨hstart, hfirst, hmask⟩ :
      (powerOn.run before).beam.AtTop ∧ (powerOn.run before).beam.frames = 0 + 1 ∧
        (powerOn.run before).mask = {} :=
    run_to_top Timely.powerOn numbered_powerOn b (by decide) (by decide)
  have hodd : (powerOn.run before).beam.Numbered :=
    numbered_run numbered_powerOn fun op hop => hops op (List.mem_append_left ops hop)
  have hshown : ∀ p : Ppu, (Op.act p (.write b 1 0x08)).mask = ⟨0x08⟩ := fun _ => rfl
  have hstill : (Op.act (powerOn.run before) (.write b 1 0x08)).beam = (powerOn.run before).beam :=
    beam_act_of_not_resets _ rfl rfl
  have hrun : (powerOn.run before).run ops =
      (Op.act (powerOn.run before) (.write b 1 0x08)).run (List.replicate 89341 (.tick b)) :=
    run_cons _ _ _
  have hend : (powerOn.run (before ++ ops)).beam.AtTop := by
    rw [run_append, hrun]
    refine (run_to_top ((Timely.powerOn.run before).act (.write b 1 0x08))
      (numbered_act hodd rfl) b (n := 89341) (by decide) ?_).1
    rw [hshown, hstill, hfirst, Beam.position, hstart.1, hstart.2]
    decide
  obtain ⟨hplaces, hcount⟩ := frame_law.1 before ops hops hstart hend
  refine ⟨hops, hstart, hend, ?_⟩
  -- So many dots are those of one frame, and that is a short one.
  generalize (powerOn.run before).visits ops = visits at hplaces hcount ⊢
  have hticks : ops.countP Op.isTick = 89341 := by
    rw [List.countP_cons, List.countP_replicate]
    rfl
  have hfew := List.countP_le_length (p := shortFrame visits)
    (l := List.range' (powerOn.run before).beam.frames (visits.countP Visit.atTop))
  rw [List.length_range'] at hcount hfew
  have hone : visits.countP Visit.atTop = 1 := by omega
  rw [hone, hfirst] at hcount hplaces
  have hshort : shortFrame visits 1 = true := by
    rw [← Bool.not_eq_false]
    intro h
    simp [h] at hcount
    omega
  rw [hplaces]
  simp [hshort]

end Nes.Ppu
