import Nes.Proofs.Ppu.Nmi
import Mathlib.Data.List.Range

/-!
# How a picture comes about

A dot on a visible line draws one pixel (`Stroke`) into the picture that is being drawn, and nothing
else changes that picture (`Ppu.back_act`).  The two pictures change places when the vertical blank
starts (`Ppu.front_act`), so that the one that is shown is always the last that was completed
(`Ppu.front_run`).

Between two starts of the blank the strokes fill the picture cell by cell: behind the beam are those
that have been drawn (`Beam.behind`, `Ppu.cells_strokes`).  Therefore a picture consists of the
strokes between the two starts, and of nothing older (`Ppu.front_whole`).

After the start of a blank no pixel is drawn for many lines (`Ppu.strokes_after`), and there is no
second start for most of a frame (`Ppu.completed_few`).
-/

namespace Nes.Ppu

/-! ### The cells behind the beam -/

namespace Beam

/-- The cells of the picture that is being drawn that the beam has passed. -/
def behind (b : Beam) : Nat :=
  if b.line < 240 then 256 * b.line + min (b.dot - 1) 256
  else if b.line = 240 ∨ b.line = 241 ∧ b.dot ≤ 1 then 256 * 240
  else 0

theorem behind_cases (b : Beam) :
    b.line < 240 ∧ b.behind = 256 * b.line + min (b.dot - 1) 256 ∨
      (b.line = 240 ∨ b.line = 241 ∧ b.dot ≤ 1) ∧ b.behind = 61440 ∨
      (241 < b.line ∨ b.line = 241 ∧ 1 < b.dot) ∧ b.behind = 0 := by
  unfold behind
  split_ifs with hline hend
  · exact Or.inl ⟨hline, rfl⟩
  · exact Or.inr (Or.inl ⟨hend, rfl⟩)
  · exact Or.inr (Or.inr ⟨by omega, rfl⟩)

/-- The whole picture is behind the beam when the blank starts. -/
theorem behind_of_entersVblank {b : Beam} (h : b.entersVblank = true) : b.behind = 61440 := by
  obtain ⟨hline, hdot⟩ := entersVblank_iff.1 h
  rcases b.behind_cases with hb | hb | hb <;> omega

/-- Nothing of the next one is when it has started. -/
theorem behind_advance_of_entersVblank {b : Beam} (r : Bool) (h : b.entersVblank = true) :
    (b.advance r).behind = 0 := by
  obtain ⟨hline, hdot⟩ := entersVblank_iff.1 h
  have hcases := (b.advance r).behind_cases
  rw [advance_of_lt r (by rw [hdot]; decide)] at hcases ⊢
  simp only at hcases
  rcases hcases with hb | hb | hb <;> omega

/-- The beam passes the cell that it draws. -/
theorem behind_advance_of_drawing {b : Beam} (r : Bool) (h : b.drawing = true) :
    b.line * width + (b.dot - 1) = b.behind ∧ (b.advance r).behind = b.behind + 1 := by
  obtain ⟨hline, hone, hdot⟩ := drawing_iff.1 h
  have hbefore := b.behind_cases
  have hafter := (b.advance r).behind_cases
  rw [advance_of_lt r (show b.dot + 2 < 341 by omega)] at hafter ⊢
  simp only [width] at hafter ⊢
  omega

theorem behind_advance_of_not_drawing {b : Beam} (r : Bool) (hb : b.InFrame)
    (h : b.drawing = false) (he : b.entersVblank = false) : (b.advance r).behind = b.behind := by
  have hline : b.line < 262 := hb.line_lt
  have hdot : b.dot < 341 := hb.dot_lt
  have hdrawing : ¬(b.line < 240 ∧ 1 ≤ b.dot ∧ b.dot ≤ 256) := by
    rw [← drawing_iff, h]
    exact Bool.false_ne_true
  have henters : ¬(b.line = 241 ∧ b.dot = 1) := by
    rw [← entersVblank_iff, he]
    exact Bool.false_ne_true
  have hbefore := b.behind_cases
  have hafter := (b.advance r).behind_cases
  rcases b.advance_line_dot r with ⟨_, hl, hd⟩ | ⟨_, hd, ⟨_, hl⟩ | ⟨_, hl⟩⟩ <;>
    simp only [hl, hd] at hafter <;> omega

/-- Pixels are drawn before the blank starts, in the same frame. -/
theorem toBlank_of_drawing {b : Beam} (h : b.drawing = true) : b.toBlank ≤ 82182 := by
  obtain ⟨hline, hone, hdot⟩ := drawing_iff.1 h
  have hblank := b.toBlank_cases
  simp only [position, dotsPerLine] at hblank
  omega

end Beam

/-! ### Strokes -/

/-- A pixel that is drawn. -/
structure Stroke where
  /-- The line of the beam. -/
  line : Nat
  /-- The dot of the beam. -/
  dot : Nat
  /-- The colour. -/
  colour : UInt32

namespace Stroke

/-- The cell of the picture; the first column is drawn at dot 1. -/
def cell (s : Stroke) : Nat := s.line * width + (s.dot - 1)

/-- A picture with a pixel more. -/
def put (picture : Picture) (s : Stroke) : Picture := picture.setIfInBounds s.cell s.colour

end Stroke

/-- A picture with some pixels more, the last ones on top. -/
def paint (picture : Picture) (strokes : List Stroke) : Picture :=
  strokes.foldl Stroke.put picture

/-- A picture that is painted cell by cell shows the strokes there, and what it showed elsewhere. -/
theorem getElem?_paint (picture : Picture) {strokes : List Stroke} {k : Nat}
    (hcells : strokes.map Stroke.cell = List.range' k strokes.length)
    (hk : k + strokes.length ≤ 256 * 240) (i : Nat) :
    (paint picture strokes)[i]? =
      if k ≤ i ∧ i < k + strokes.length then (strokes.map Stroke.colour)[i - k]?
      else picture[i]? := by
  induction strokes generalizing picture k with
  | nil => rw [if_neg (by simp only [List.length_nil]; omega)]; rfl
  | cons s strokes ih =>
    rw [List.map_cons, List.length_cons, List.range'_succ, List.cons.injEq] at hcells
    rw [List.length_cons] at hk ⊢
    have hpaint : paint picture (s :: strokes) = paint (s.put picture) strokes := rfl
    rw [hpaint, ih (s.put picture) hcells.2 (by omega), Stroke.put, hcells.1,
      Vector.getElem?_setIfInBounds]
    rcases Nat.lt_trichotomy i k with hi | rfl | hi
    · rw [if_neg (by omega), if_neg (by omega), if_neg (by omega)]
    · rw [if_neg (by omega), if_pos rfl, if_pos (by omega), if_pos (by omega), Nat.sub_self]
      rfl
    · by_cases hlast : i < k + (strokes.length + 1)
      · rw [if_pos (by omega), if_pos (by omega), List.map_cons,
          show i - k = (i - (k + 1)) + 1 by omega, List.getElem?_cons_succ]
      · rw [if_neg (by omega), if_neg (by omega), if_neg (by omega)]

/-- Nothing is left of a picture that is painted over. -/
theorem toList_paint (picture : Picture) {strokes : List Stroke}
    (hcells : strokes.map Stroke.cell = List.range (256 * 240)) :
    (paint picture strokes).toList = strokes.map Stroke.colour := by
  have hlength : strokes.length = 256 * 240 := by
    rw [← List.length_map Stroke.cell, hcells, List.length_range]
  refine List.ext_getElem? fun i => ?_
  have hpaint := getElem?_paint picture (k := 0)
    (by rw [hcells, hlength, List.range_eq_range']) (by omega) i
  rw [Vector.getElem?_toList, hpaint, Nat.sub_zero, hlength]
  split
  · rfl
  · next hi => rw [List.getElem?_eq_none (by rw [List.length_map]; omega),
      Vector.getElem?_eq_none (by omega)]

/-! ### What an operation draws -/

/-- The colour of the pixel at the beam. -/
def beamColour (p : Ppu) : UInt32 :=
  let column := p.beam.dot - 1
  let (pixel, palette) := p.backgroundAt column
  rgb (p.paletteEntry (mix pixel palette (p.spriteAt column))) p.mask.greyscale

theorem back_drawPixel (p : Ppu) :
    p.drawPixel.back = Stroke.put p.back ⟨p.beam.line, p.beam.dot, p.beamColour⟩ := rfl

variable {γ : Type}

namespace Op

/-- The operation is a dot. -/
def isTick : Op γ → Bool
  | tick _ => true
  | _ => false

theorem eq_tick {op : Op γ} (h : op.isTick = true) : ∃ cart, op = tick cart := by
  cases op with
  | tick cart => exact ⟨cart, rfl⟩
  | _ => exact Bool.noConfusion h

/-- The operation takes the picture. -/
def takes : Op γ → Bool
  | takeFrame => true
  | _ => false

variable [PictureBus γ]

/-- The pixel that an operation draws, if it draws one. -/
def stroke? (p : Ppu) : Op γ → Option Stroke
  | tick cart =>
    if p.beam.drawing then some ⟨p.beam.line, p.beam.dot, (p.prepared cart).beamColour⟩ else none
  | _ => none

/-- The operation is the dot with which the vertical blank starts. -/
def completes (p : Ppu) : Op γ → Bool
  | tick _ => p.beam.entersVblank
  | _ => false

theorem of_not_isTick (p : Ppu) {op : Op γ} (h : op.isTick = false) :
    op.completes p = false ∧ op.stroke? p = none := by
  cases op with
  | tick cart => exact Bool.noConfusion h
  | _ => exact ⟨rfl, rfl⟩

end Op

variable [PictureBus γ]

/-- The pixels that some operations draw. -/
def strokes (p : Ppu) : List (Op γ) → List Stroke
  | [] => []
  | op :: ops => (op.stroke? p).toList ++ (op.act p).strokes ops

/-- The pictures that some operations complete. -/
def completed (p : Ppu) : List (Op γ) → List Picture
  | [] => []
  | op :: ops =>
    (if op.completes p then [(op.act p).front] else []) ++ (op.act p).completed ops

/-- The pictures that some operations take. -/
def taken (p : Ppu) : List (Op γ) → List Picture
  | [] => []
  | op :: ops => (if op.takes && p.frameReady then [p.front] else []) ++ (op.act p).taken ops

theorem completed_cons_eq_nil {p : Ppu} {op : Op γ} {ops : List (Op γ)} :
    p.completed (op :: ops) = [] ↔
      op.completes p = false ∧ (op.act p).completed ops = [] := by
  rw [completed, List.append_eq_nil_iff]
  refine and_congr_left' ?_
  cases op.completes p <;> simp

theorem completed_append (p : Ppu) (ops ops' : List (Op γ)) :
    p.completed (ops ++ ops') = p.completed ops ++ (p.run ops).completed ops' := by
  induction ops generalizing p with
  | nil => rfl
  | cons op ops ih => simp only [List.cons_append, completed, ih, List.append_assoc]; rfl

theorem taken_append (p : Ppu) (ops ops' : List (Op γ)) :
    p.taken (ops ++ ops') = p.taken ops ++ (p.run ops).taken ops' := by
  induction ops generalizing p with
  | nil => rfl
  | cons op ops ih => simp only [List.cons_append, taken, ih, List.append_assoc]; rfl

/-! ### What an operation changes -/

/-- The parts of the picture unit that show what has been drawn. -/
structure Easel where
  /-- The last complete picture. -/
  front : Picture
  /-- The picture being drawn. -/
  back : Picture
  /-- A picture has been completed and not yet been taken. -/
  frameReady : Bool
  /-- The beam. -/
  beam : Beam

/-- The easel of a picture unit. -/
def easel (p : Ppu) : Easel := ⟨p.front, p.back, p.frameReady, p.beam⟩

theorem easel_readRegister (p : Ppu) (cart : γ) (number : UInt16) :
    (p.readRegister cart number).2.easel = p.easel := by
  unfold readRegister
  split
  next v q heq =>
    split at heq <;> cases heq <;> rfl

theorem easel_writeRegister (p : Ppu) (cart : γ) (number : UInt16) (v : UInt8) :
    (p.writeRegister cart number v).1.easel = p.easel := by
  unfold writeRegister
  dsimp only
  split
  case h_6 =>
    unfold writeScroll
    split_ifs <;> rfl
  case h_7 =>
    unfold writeAddr
    split_ifs <;> rfl
  case h_8 =>
    unfold writeMemory
    dsimp only
    split_ifs <;> rfl
  all_goals rfl

theorem easel_writeSprites (p : Ppu) (page : List UInt8) :
    (p.writeSprites page).easel = p.easel := by
  unfold writeSprites
  induction page generalizing p with
  | nil => rfl
  | cons v page ih =>
    rw [List.foldl_cons, ih]
    rfl

/-- Besides dots, only a reset touches the beam, and the line and the dot stay. -/
theorem easel_act (p : Ppu) {op : Op γ} (hop : op.isTick = false) :
    ∃ oddFrame, (op.act p).easel =
      { p.easel with
        frameReady := !op.takes && p.frameReady
        beam := { p.beam with oddFrame } } := by
  cases op with
  | tick cart => exact Bool.noConfusion hop
  | read cart number => exact ⟨p.beam.oddFrame, easel_readRegister p cart number⟩
  | write cart number v => exact ⟨p.beam.oddFrame, easel_writeRegister p cart number v⟩
  | sprites page => exact ⟨p.beam.oddFrame, easel_writeSprites p page⟩
  | takeFrame => exact ⟨p.beam.oddFrame, rfl⟩
  | poll => exact ⟨p.beam.oddFrame, rfl⟩
  | reset => exact ⟨false, rfl⟩

/-- The picture that is shown changes with the start of a blank only. -/
theorem front_act (p : Ppu) (op : Op γ) :
    (op.act p).front = if op.completes p then p.back else p.front := by
  cases hop : op.isTick with
  | true =>
    obtain ⟨cart, rfl⟩ := Op.eq_tick hop
    exact front_tick p cart
  | false =>
    obtain ⟨oddFrame, heq⟩ := easel_act p hop
    rw [(Op.of_not_isTick p hop).1]
    exact congrArg Easel.front heq

/-- The picture that is being drawn changes by strokes, and when the blank starts. -/
theorem back_act (p : Ppu) (op : Op γ) :
    (op.act p).back =
      if op.completes p then p.front else paint p.back (op.stroke? p).toList := by
  cases hop : op.isTick with
  | true =>
    obtain ⟨cart, rfl⟩ := Op.eq_tick hop
    have hbeam : (p.prepared cart).beam = p.beam := congrArg Screen.beam (screen_prepared p cart)
    have hback : (p.prepared cart).back = p.back := congrArg Screen.back (screen_prepared p cart)
    refine (back_tick p cart).trans ?_
    refine if_congr Iff.rfl rfl ?_
    unfold Op.stroke?
    split
    · rw [back_drawPixel, hbeam, hback]
      rfl
    · rfl
  | false =>
    obtain ⟨oddFrame, heq⟩ := easel_act p hop
    obtain ⟨hcompletes, hstroke⟩ := Op.of_not_isTick p hop
    rw [hcompletes, hstroke]
    exact congrArg Easel.back heq

/-- A picture is ready from the start of a blank until it is taken. -/
theorem frameReady_act (p : Ppu) (op : Op γ) :
    (op.act p).frameReady = (op.completes p || (!op.takes && p.frameReady)) := by
  cases hop : op.isTick with
  | true =>
    obtain ⟨cart, rfl⟩ := Op.eq_tick hop
    exact frameReady_tick p cart
  | false =>
    obtain ⟨oddFrame, heq⟩ := easel_act p hop
    rw [(Op.of_not_isTick p hop).1]
    exact congrArg Easel.frameReady heq

theorem beam_act_tick (p : Ppu) (cart : γ) :
    (Op.act p (.tick cart)).beam = p.beam.advance p.mask.rendering := beam_tick p cart

theorem beam_act_of_not_isTick (p : Ppu) {op : Op γ} (hop : op.isTick = false) :
    ∃ oddFrame, (op.act p).beam = { p.beam with oddFrame } := by
  obtain ⟨oddFrame, heq⟩ := easel_act p hop
  exact ⟨oddFrame, congrArg Easel.beam heq⟩

theorem beam_of_completes {p : Ppu} {op : Op γ} (hop : op.completes p = true) :
    p.beam.entersVblank = true ∧ (op.act p).beam = p.beam.advance p.mask.rendering := by
  cases op with
  | tick cart => exact ⟨hop, beam_tick p cart⟩
  | _ => exact Bool.noConfusion hop

/-! ### Whole pictures -/

/-- The picture that is shown is the last that was completed. -/
theorem front_run (p : Ppu) (ops : List (Op γ)) :
    (p.run ops).front = (p.completed ops).getLastD p.front := by
  induction ops generalizing p with
  | nil => rfl
  | cons op ops ih =>
    have hrun : p.run (op :: ops) = (op.act p).run ops := rfl
    rw [hrun, ih, front_act, completed]
    split
    · rw [List.singleton_append, List.getLastD_cons, front_act, if_pos ‹_›]
    · rfl

/-- Until a blank starts, the picture that is being drawn is painted over. -/
theorem back_run (p : Ppu) {ops : List (Op γ)} (hops : p.completed ops = []) :
    (p.run ops).back = paint p.back (p.strokes ops) := by
  induction ops generalizing p with
  | nil => rfl
  | cons op ops ih =>
    obtain ⟨hcompletes, hrest⟩ := completed_cons_eq_nil.1 hops
    have hrun : p.run (op :: ops) = (op.act p).run ops := rfl
    rw [hrun, ih _ hrest, back_act, hcompletes, if_neg Bool.false_ne_true, strokes, paint, paint,
      paint, List.foldl_append]

/-- A picture is ready if one has been completed and none was taken. -/
theorem frameReady_run (p : Ppu) {ops : List (Op γ)} (hops : ∀ op ∈ ops, op.takes = false) :
    (p.run ops).frameReady = (p.frameReady || !(p.completed ops).isEmpty) := by
  induction ops generalizing p with
  | nil => exact (Bool.or_false _).symm
  | cons op ops ih =>
    have hrun : p.run (op :: ops) = (op.act p).run ops := rfl
    rw [hrun, ih _ fun op' hop' => hops op' (List.mem_cons_of_mem op hop'), frameReady_act,
      hops op List.mem_cons_self, completed]
    cases op.completes p <;> cases p.frameReady <;> rfl

/-- The beam passes the cell that an operation fills. -/
theorem behind_act {p : Ppu} (hp : p.beam.InFrame) {op : Op γ} (hop : op.completes p = false) :
    (op.stroke? p).toList.map Stroke.cell =
        List.range' p.beam.behind (op.stroke? p).toList.length ∧
      (op.act p).beam.behind = p.beam.behind + (op.stroke? p).toList.length := by
  cases htick : op.isTick with
  | true =>
    obtain ⟨cart, rfl⟩ := Op.eq_tick htick
    rw [beam_act_tick, Op.stroke?]
    cases hdrawing : p.beam.drawing with
    | true =>
      obtain ⟨hcell, hbehind⟩ := p.beam.behind_advance_of_drawing p.mask.rendering hdrawing
      exact ⟨congrArg (fun k => [k]) hcell, hbehind⟩
    | false =>
      exact ⟨rfl, Beam.behind_advance_of_not_drawing _ hp hdrawing hop⟩
  | false =>
    obtain ⟨oddFrame, hbeam⟩ := beam_act_of_not_isTick p htick
    rw [(Op.of_not_isTick p htick).2, hbeam]
    exact ⟨rfl, rfl⟩

/-- Until a blank starts, the strokes fill the cells in order. -/
theorem cells_strokes {p : Ppu} (hp : Timely p) {ops : List (Op γ)} (hops : p.completed ops = []) :
    (p.strokes ops).map Stroke.cell = List.range' p.beam.behind (p.strokes ops).length ∧
      (p.run ops).beam.behind = p.beam.behind + (p.strokes ops).length := by
  induction ops generalizing p with
  | nil => exact ⟨rfl, rfl⟩
  | cons op ops ih =>
    obtain ⟨hcompletes, hrest⟩ := completed_cons_eq_nil.1 hops
    obtain ⟨hcells, hbehind⟩ := behind_act hp.inFrame hcompletes
    obtain ⟨hcells', hbehind'⟩ := ih (hp.act op) hrest
    have hrun : p.run (op :: ops) = (op.act p).run ops := rfl
    rw [hrun, hbehind', hbehind, strokes, List.map_append, hcells, hcells', hbehind,
      List.length_append, List.range'_append_1, Nat.add_assoc]
    exact ⟨rfl, rfl⟩

theorem mem_strokes {p : Ppu} {ops : List (Op γ)} {s : Stroke} (hs : s ∈ p.strokes ops) :
    s.line < 240 ∧ 1 ≤ s.dot ∧ s.dot ≤ 256 := by
  induction ops generalizing p with
  | nil => exact absurd hs List.not_mem_nil
  | cons op ops ih =>
    rw [strokes, List.mem_append, Option.mem_toList] at hs
    rcases hs with hs | hs
    · cases hop : op.isTick with
      | true =>
        obtain ⟨cart, rfl⟩ := Op.eq_tick hop
        rw [Op.stroke?, Option.ite_none_right_eq_some] at hs
        obtain ⟨hdrawing, hs⟩ := hs
        cases hs
        exact Beam.drawing_iff.1 hdrawing
      | false =>
        rw [(Op.of_not_isTick p hop).2] at hs
        cases hs
    · exact ih hs

/-- **A picture is whole.**  Between two starts of the blank each cell is drawn once, in order, and
what is then shown are the pixels that were drawn. -/
theorem front_whole {p : Ppu} (hp : Timely p) {first last : Op γ} {between : List (Op γ)}
    (hfirst : first.completes p = true) (hbetween : (first.act p).completed between = [])
    (hlast : last.completes ((first.act p).run between) = true) :
    ((first.act p).strokes between).map (fun s => (s.line, s.dot)) =
        (List.range (256 * 240)).map (fun cell => (cell / 256, cell % 256 + 1)) ∧
      (last.act ((first.act p).run between)).front.toList =
        ((first.act p).strokes between).map Stroke.colour := by
  have hstart : (first.act p).beam.behind = 0 := by
    obtain ⟨henters, hbeam⟩ := beam_of_completes hfirst
    rw [hbeam]
    exact Beam.behind_advance_of_entersVblank _ henters
  have hend : ((first.act p).run between).beam.behind = 61440 :=
    Beam.behind_of_entersVblank (beam_of_completes hlast).1
  obtain ⟨hcells, hbehind⟩ := cells_strokes (hp.act first) hbetween
  have hlength : ((first.act p).strokes between).length = 256 * 240 := by omega
  rw [hstart, hlength, ← List.range_eq_range'] at hcells
  refine ⟨?_, ?_⟩
  · rw [← hcells, List.map_map]
    refine List.map_congr_left fun s hs => ?_
    obtain ⟨_, hone, hdot⟩ := mem_strokes hs
    simp only [Function.comp_apply, Stroke.cell, width, Prod.mk.injEq]
    omega
  · rw [front_act, hlast, if_pos rfl, back_run _ hbetween, toList_paint _ hcells]

/-- A blank comes, if only dots follow. -/
theorem Timely.exists_completes {p : Ppu} (hp : Timely p) (cart : γ) :
    ∃ n, (Op.tick cart).completes (p.run (List.replicate n (.tick cart))) = true ∧
      p.completed (List.replicate n (.tick cart)) = [] := by
  generalize hd : p.beam.toBlank = d
  induction d using Nat.strong_induction_on generalizing p with
  | _ d ih =>
    cases he : p.beam.entersVblank with
    | true => exact ⟨0, he, rfl⟩
    | false =>
      have hless : (Op.act p (.tick cart)).beam.toBlank < d := by
        rw [beam_act_tick, ← hd]
        exact (Beam.toBlank_advance hp.inFrame _ he).1
      obtain ⟨n, hn, hnone⟩ := ih _ hless (hp.act (.tick cart)) rfl
      exact ⟨n + 1, hn, completed_cons_eq_nil.2 ⟨he, hnone⟩⟩

/-- Dots do not change the control register. -/
theorem control_run_replicate (p : Ppu) (cart : γ) (n : Nat) :
    (p.run (List.replicate n (.tick cart))).control = p.control := by
  induction n generalizing p with
  | zero => rfl
  | succ n ih =>
    rw [List.replicate_succ, run_cons, ih]
    exact congrArg Setting.control (setting_tick p cart)

/-- Nor do they set the latch for the interrupt until a blank starts. -/
theorem nmi_run_replicate {p : Ppu} {cart : γ} {n : Nat}
    (hnone : p.completed (List.replicate n (.tick cart)) = []) :
    (p.run (List.replicate n (.tick cart))).nmi = p.nmi := by
  induction n generalizing p with
  | zero => rfl
  | succ n ih =>
    rw [List.replicate_succ] at hnone ⊢
    obtain ⟨hfirst, hrest⟩ := completed_cons_eq_nil.1 hnone
    have htick : (p.tick cart).nmi = p.nmi := by
      change p.beam.entersVblank = false at hfirst
      rw [nmi_tick, hfirst, Bool.false_and, Bool.or_false]
    rw [run_cons, ih hrest]
    exact htick

/-! ### The start of a blank within a few dots -/

theorem toBlank_act_of_not_isTick (p : Ppu) {op : Op γ} (hop : op.isTick = false) :
    (op.act p).beam.toBlank = p.beam.toBlank := by
  obtain ⟨oddFrame, hbeam⟩ := beam_act_of_not_isTick p hop
  rw [hbeam]
  rfl

/-- Far from the next blank no pixel is drawn. -/
theorem strokes_eq_nil {p : Ppu} (hp : Timely p) {ops : List (Op γ)}
    (hops : 82182 + 2 * ops.countP Op.isTick ≤ p.beam.toBlank) : p.strokes ops = [] := by
  induction ops generalizing p with
  | nil => rfl
  | cons op ops ih =>
    rw [List.countP_cons] at hops
    cases hop : op.isTick with
    | true =>
      obtain ⟨cart, rfl⟩ := Op.eq_tick hop
      have hdrawing : p.beam.drawing = false := by
        rw [← Bool.not_eq_true]
        intro hdrawing
        have := Beam.toBlank_of_drawing hdrawing
        rw [if_pos hop] at hops
        omega
      have he : p.beam.entersVblank = false := by
        rw [← Bool.not_eq_true, Beam.entersVblank_iff_toBlank hp.inFrame]
        omega
      have hadvance := Beam.toBlank_advance hp.inFrame p.mask.rendering he
      rw [if_pos hop] at hops
      rw [strokes, ih (hp.act (.tick cart)) (by rw [beam_act_tick]; omega), Op.stroke?, hdrawing]
      rfl
    | false =>
      rw [hop, if_neg Bool.false_ne_true, ← toBlank_act_of_not_isTick p hop] at hops
      rw [strokes, ih (hp.act op) hops, (Op.of_not_isTick p hop).2]
      rfl

/-- For many lines after the start of a blank no pixel is drawn. -/
theorem strokes_after {p : Ppu} (hp : Timely p) {first : Op γ} (hfirst : first.completes p = true)
    {ops : List (Op γ)} (hops : ops.countP Op.isTick ≤ 3500) : (first.act p).strokes ops = [] := by
  refine strokes_eq_nil (hp.act first) ?_
  obtain ⟨henters, hbeam⟩ := beam_of_completes hfirst
  rw [hbeam, Beam.toBlank_advance_of_entersVblank _ henters]
  omega

/-- There is no start of a blank before the next blank, and only one in most of a frame. -/
theorem completed_few {p : Ppu} (hp : Timely p) (ops : List (Op γ)) :
    (2 * ops.countP Op.isTick ≤ p.beam.toBlank → p.completed ops = []) ∧
      (2 * ops.countP Op.isTick ≤ 80000 → (p.completed ops).length ≤ 1) := by
  induction ops generalizing p with
  | nil => exact ⟨fun _ => rfl, fun _ => Nat.zero_le 1⟩
  | cons op ops ih =>
    obtain ⟨ihnone, ihone⟩ := ih (hp.act op)
    rw [List.countP_cons]
    cases hop : op.isTick with
    | true =>
      obtain ⟨cart, rfl⟩ := Op.eq_tick hop
      rw [beam_act_tick] at ihnone
      rw [if_pos rfl, completed, Op.completes]
      cases he : p.beam.entersVblank with
      | false =>
        have hadvance := Beam.toBlank_advance hp.inFrame p.mask.rendering he
        rw [if_neg Bool.false_ne_true, List.nil_append]
        exact ⟨fun h => ihnone (by omega), fun h => ihone (by omega)⟩
      | true =>
        -- From here the next blank is a frame away.
        have hzero := (Beam.entersVblank_iff_toBlank hp.inFrame).1 he
        rw [Beam.toBlank_advance_of_entersVblank _ he] at ihnone
        refine ⟨fun h => by omega, fun h => ?_⟩
        rw [ihnone (by omega), if_pos rfl]
        rfl
    | false =>
      rw [toBlank_act_of_not_isTick p hop] at ihnone
      rw [if_neg Bool.false_ne_true, Nat.add_zero, completed, (Op.of_not_isTick p hop).1,
        if_neg Bool.false_ne_true, List.nil_append]
      exact ⟨ihnone, ihone⟩

/-! ### Taking pictures -/

theorem taken_eq_nil (p : Ppu) {ops : List (Op γ)} (hops : ∀ op ∈ ops, op.takes = false) :
    p.taken ops = [] := by
  induction ops generalizing p with
  | nil => rfl
  | cons op ops ih =>
    rw [taken, hops op List.mem_cons_self,
      ih _ fun op' hop' => hops op' (List.mem_cons_of_mem op hop')]
    rfl

/-- Who asks for the picture often enough gets those that were completed. -/
theorem taken_eq_completed {p : Ppu} (hready : p.frameReady = false) {ops : List (Op γ)}
    (hops : ∀ op ∈ ops, op.takes = false) (hone : (p.completed ops).length ≤ 1) :
    p.taken (ops ++ [.takeFrame]) = p.completed ops := by
  have hfront := p.front_run ops
  have hflag := p.frameReady_run hops
  rw [taken_append, p.taken_eq_nil hops, List.nil_append, taken, taken, hflag, hready, hfront]
  match hcompleted : p.completed ops, hone with
  | [], _ => rfl
  | [picture], _ => rfl

end Nes.Ppu
