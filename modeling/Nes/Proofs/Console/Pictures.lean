import Nes.Proofs.Console.Nmi
import Nes.Proofs.System.Ppu

/-!
# Every picture is handed out once

`Host.filming h` is the host `h` with a film: it keeps the pictures that it is given, and otherwise
does what `h` does (`Console.step_filming`).  `Filmed ops film c` is a run from power-on to the
console `c`, with the operations of its picture unit and its film.

A step is so short that it completes one picture at most, and it asks for the picture at its end,
before any pixel of the next one is drawn (`Console.film_step`).  So the film of a run is what the
picture unit has completed (`Filmed.film_eq`), and what it completes is whole
(`Console.film_whole`).
-/

namespace Nes

/-- A host that keeps the pictures that it is given. -/
def Console.Host.filming {η : Type} (h : Console.Host η) : Console.Host (η × List Picture) where
  onFrame picture remote s :=
    let (result, remote, s') := h.onFrame picture remote s.1
    (result, remote, s', s.2 ++ [picture])
  onError e s := (h.onError e s.1, s.2)
  debugger := h.debugger.map fun d =>
    { consult := fun c s =>
        let (pauses, remote, s') := d.consult c s.1
        (pauses, remote, s', s.2)
      hold := fun c s =>
        let (remote, s') := d.hold c s.1
        (remote, s', s.2) }

namespace Console

open Nes.System Nes.Ppu

variable {η : Type} (h : Host η) (c : Console) (s : η)

/-! ### Filming a step -/

theorem onFrame_filming (picture : Picture) (remote : Remote) (film : List Picture) :
    h.filming.onFrame picture remote (s, film) =
      ((h.onFrame picture remote s).1, (h.onFrame picture remote s).2.1,
        (h.onFrame picture remote s).2.2, film ++ [picture]) := rfl

theorem consult_filming (film : List Picture) :
    c.consult h.filming (s, film) =
      ((c.consult h s).1, (c.consult h s).2.1, (c.consult h s).2.2, film) := by
  obtain ⟨onFrame, onError, _ | d⟩ := h
  · rfl
  · unfold consult Host.filming
    dsimp only [Option.map_some]
    split <;> rfl

/-- At the end of a step the picture is asked for. -/
theorem ops_deliverDeeds (q : System) : q.ops (c.deliverDeeds h s) = [.takeFrame] := by
  unfold deliverDeeds
  split
  · split <;> rfl
  · rfl

theorem deliver_filming (film : List Picture) :
    c.deliver h.filming (s, film) =
      ((c.deliver h s).1, (c.deliver h s).2.1, (c.deliver h s).2.2,
        film ++ c.system.ppu.taken (c.system.ops (c.deliverDeeds h s))) := by
  rw [ops_deliverDeeds, deliver_eq, deliver_eq, taken, taken, List.append_nil]
  cases c.system.ppu.frameReady with
  | false => exact congrArg (fun film => (_, _, _, film)) (List.append_nil film).symm
  | true =>
    rw [if_pos rfl, if_pos rfl, onFrame_filming]
    generalize h.onFrame c.system.ppu.front c.remote s = x
    obtain ⟨_ | _, remote, s'⟩ := x <;> rfl

theorem isFrame_elapseDeeds (used : Nat) : ∀ d ∈ c.elapseDeeds used, d.isFrame = false := by
  intro d hd
  rw [elapseDeeds, List.mem_append] at hd
  rcases hd with hd | hd
  · exact isFrame_tickDeeds _ _ d hd
  · exact isFrame_drainDeeds _ _ d hd

theorem isFrame_resetDeeds : ∀ d ∈ c.resetDeeds, d.isFrame = false := by
  intro d hd
  rcases mem_resetDeeds hd with rfl | hd
  · rfl
  · exact Deed.isFrame_of_isAccess hd

theorem isFrame_pollDeeds : ∀ d ∈ c.pollDeeds, d.isFrame = false := by
  intro d hd
  rcases mem_pollDeeds hd with rfl | rfl
  · rfl
  · rfl

theorem complete_filming (used : Nat) (film : List Picture) :
    c.complete h.filming used (s, film) =
      ((c.complete h used s).1, (c.complete h used s).2.1, (c.complete h used s).2.2,
        film ++ c.system.ppu.taken (c.system.ops (c.completeDeeds h s used))) := by
  rw [completeDeeds, System.taken_append _ (c.isFrame_elapseDeeds used), replay_elapseDeeds]
  unfold complete
  simp only [deliver_filming]

/-- The film gets the pictures that are taken in a step, and changes nothing of it. -/
theorem step_filming (film : List Picture) :
    c.step h.filming (s, film) =
      ((c.step h s).1, (c.step h s).2.1, (c.step h s).2.2,
        film ++ c.system.ppu.taken (c.system.ops (c.deeds h s))) := by
  have hserved : ∀ d ∈ c.applyReset.servedDeeds, d.isFrame = false := fun d hd =>
    Deed.isFrame_of_isAccess (c.applyReset.isQuiet_servedDeeds d hd).isAccess
  unfold step deeds
  simp only [List.append_assoc]
  rw [System.taken_append _ c.isFrame_resetDeeds, replay_resetDeeds,
    System.taken_append _ c.applyReset.isFrame_pollDeeds, System.taken_append _ hserved,
    replay_servedDeeds]
  generalize c.applyReset.dispatch = dispatched
  obtain ⟨used, c'⟩ := dispatched
  dsimp only
  split
  · exact c'.complete_filming h s used film
  rw [consult_filming]
  obtain ⟨remote, pauseCycles, hasked⟩ := c'.consult_eq h s
  generalize c'.consult h s = asked at hasked ⊢
  obtain ⟨goes, c'', s'⟩ := asked
  have hsystem : c'.system = c''.system := by
    simp only at hasked
    rw [hasked]
    rfl
  cases goes with
  | false => simp only [Bool.not_false, ↓reduceIte, ops, taken, List.append_nil]
  | true =>
    have hinstruction : ∀ d ∈ c''.instructionDeeds, d.isFrame = false := fun d hd =>
      Deed.isFrame_of_isAccess (c''.accessing_instructionDeeds.isAccess d hd)
    simp only [Bool.not_true, Bool.false_eq_true, ↓reduceIte]
    rw [hsystem, System.taken_append _ hinstruction, replay_instructionDeeds]
    generalize c''.instruction = r
    obtain ⟨_ | used, c₃⟩ := r
    · simp only [ops, taken, List.append_nil]
    · exact c₃.complete_filming h s' used film

/-! ### The pictures of a step -/

variable {c}

theorem countP_isDot_resetDeeds : c.resetDeeds.countP Deed.isDot = 0 := by
  rw [List.countP_eq_zero]
  intro d hd
  rcases mem_resetDeeds hd with rfl | hd
  · exact Bool.false_ne_true
  · cases d <;> first | exact Bool.false_ne_true | exact Bool.noConfusion hd

/-- A step asks for the picture at its end, if time has passed in it. -/
theorem deeds_cases (hc : Settled c.system) :
    ∃ before after, c.deeds h s = before ++ after ∧ (∀ d ∈ before, d.isFrame = false) ∧
      before.countP Deed.isDot ≤ 1602 ∧
      ((∀ q : System, q.ops after = [.takeFrame]) ∨
        after = [] ∧ before.countP Deed.isDot = 0) := by
  have hframe {ds : List Deed} (hds : ∀ d ∈ ds, d.isFrame = false) :
      ∀ d ∈ c.resetDeeds ++ (c.applyReset.pollDeeds ++ ds), d.isFrame = false := by
    intro d hd
    rcases List.mem_append.1 hd with hd | hd
    · exact c.isFrame_resetDeeds d hd
    rcases List.mem_append.1 hd with hd | hd
    · exact c.applyReset.isFrame_pollDeeds d hd
    · exact hds d hd
  have hstill {ds : List Deed} {c' : Console} (hr : Rested c.applyReset ds c') :
      (c.resetDeeds ++ (c.applyReset.pollDeeds ++ ds)).countP Deed.isDot = 0 := by
    rw [List.countP_append, countP_isDot_resetDeeds, (hr.passes hc.applyReset).1.dots]
  rcases c.step_cases h s with ⟨ds, used, c', s', hw, _, hds⟩ | ⟨ds, j, c', s', hr, _, _, hds⟩ |
    ⟨ds, c', s', hr, _, _, _, hds⟩
  · obtain ⟨⟨f, hpasses, _⟩, hle, _⟩ := hw.completed h s' hc.applyReset
    have hdots := hpasses.dots
    refine ⟨c.resetDeeds ++ (c.applyReset.pollDeeds ++ (ds ++ c'.elapseDeeds used)),
      (c'.elapse used).2.deliverDeeds h s', ?_, hframe fun d hd => ?_, ?_,
      Or.inl fun q => (c'.elapse used).2.ops_deliverDeeds h s' q⟩
    · rw [hds, completeDeeds]
      simp only [List.append_assoc]
    · rcases List.mem_append.1 hd with hd | hd
      · exact Deed.isFrame_of_isAccess (hw.accessing.isAccess d hd)
      · exact c'.isFrame_elapseDeeds used d hd
    · simp only [completeDeeds, List.countP_append, countP_isDot_resetDeeds] at hdots ⊢
      omega
  · refine ⟨_, [], by rw [hds, List.append_nil], hframe fun d hd => ?_, ?_, Or.inr ⟨rfl, hstill hr⟩⟩
    · exact Deed.isFrame_of_isAccess (hr.quiet d hd).isAccess
    · rw [hstill hr]
      exact Nat.zero_le _
  · refine ⟨_, [], by rw [hds, List.append_nil], hframe fun d hd => ?_, ?_, Or.inr ⟨rfl, hstill hr⟩⟩
    · exact Deed.isFrame_of_isAccess (hr.quiet d hd).isAccess
    · rw [hstill hr]
      exact Nat.zero_le _

/-- A step completes one picture at most, and takes it. -/
theorem film_step (hc : Reachable c) (hready : c.system.ppu.frameReady = false) :
    let ops := c.system.ops (c.deeds h s)
    (c.system.ppu.completed ops).length ≤ 1 ∧
      c.system.ppu.taken ops = c.system.ppu.completed ops ∧
      ops.countP Op.isTick ≤ 1602 ∧ (c.step h s).2.1.system.ppu.frameReady = false := by
  intro ops
  obtain ⟨before, after, hds, hframe, hdots, hafter⟩ := deeds_cases h s hc.settled
  have hops : ops = c.system.ops before ++ (c.system.replay before).ops after := by
    rw [← ops_append, ← hds]
  have htakes := c.system.takes_ops hframe
  have hticks : (c.system.ops before).countP Op.isTick ≤ 1602 := by
    rw [countP_isTick_ops]
    exact hdots
  obtain ⟨hnone, hone⟩ := completed_few hc.timely (c.system.ops before)
  have hone := hone (by omega)
  have hppu : (c.step h s).2.1.system.ppu = c.system.ppu.run ops := by
    rw [← replay_deeds, ppu_replay]
  rw [hppu, hops]
  rcases hafter with htake | ⟨rfl, hzero⟩
  · rw [htake, taken_eq_completed hready htakes hone, completed_append, List.countP_append,
      run_append]
    rw [show (c.system.ppu.run (c.system.ops before)).completed [Op.takeFrame] = [] from rfl,
      List.append_nil]
    exact ⟨hone, rfl, hticks, rfl⟩
  · have hnone := hnone (by rw [countP_isTick_ops, hzero]; exact Nat.zero_le _)
    rw [System.ops, List.append_nil, hnone, taken_eq_nil _ htakes, frameReady_run _ htakes, hready,
      hnone]
    exact ⟨Nat.zero_le 1, rfl, hticks, rfl⟩

/-! ### The pictures of a run -/

/-- A run from power-on, with what it has done to the picture unit and the pictures that its hosts
have been given. -/
inductive Filmed : (ops : List (Op Board)) → (film : List Picture) → Console → Prop
  /-- Power is turned on. -/
  | powerOn {cart : Cartridge} {config : Config} {c : Console} (h : powerOn cart config = .ok c) :
    Filmed [] [] c
  /-- Something is done to the console between two steps. -/
  | handled {ops : List (Op Board)} {film : List Picture} {c c' : Console} (hc : Filmed ops film c)
    (h : Handled c c') : Filmed ops film c'
  /-- The console takes a step. -/
  | step {ops : List (Op Board)} {film : List Picture} {c : Console} (hc : Filmed ops film c)
    {η : Type} (h : Host η) (s : η) :
    Filmed (ops ++ c.system.ops (c.deeds h s)) (c.step h.filming (s, film)).2.2.2
      (c.step h s).2.1

theorem Reachable.filmed (hc : Reachable c) : ∃ ops film, Filmed ops film c := by
  induction hc with
  | powerOn h => exact ⟨[], [], .powerOn h⟩
  | step _ h s ih =>
    obtain ⟨ops, film, hc⟩ := ih
    exact ⟨_, _, hc.step h s⟩
  | handled _ h ih =>
    obtain ⟨ops, film, hc⟩ := ih
    exact ⟨ops, film, hc.handled h⟩

theorem Filmed.reachable {ops : List (Op Board)} {film : List Picture} (hc : Filmed ops film c) :
    Reachable c := by
  induction hc with
  | powerOn h => exact .powerOn h
  | handled _ h ih => exact ih.handled h
  | step _ h s ih => exact ih.step h s

theorem ppu_powerOn {cart : Cartridge} {config : Config} (h : powerOn cart config = .ok c) :
    c.system.ppu = Ppu.powerOn := by
  obtain ⟨rate, hz, board, hm, _⟩ := powerOn_cases h
  rw [system, hm]
  rfl

/-- The film of a run shows what the picture unit has completed, and nothing waits to be taken. -/
theorem Filmed.film_eq {ops : List (Op Board)} {film : List Picture} (hc : Filmed ops film c) :
    c.system.ppu = Ppu.powerOn.run ops ∧ film = Ppu.powerOn.completed ops ∧
      c.system.ppu.frameReady = false := by
  induction hc with
  | powerOn h =>
    rw [ppu_powerOn h]
    exact ⟨rfl, rfl, rfl⟩
  | handled _ h ih =>
    obtain ⟨_, _, player, notices, hsystem⟩ := h.cases
    rw [hsystem]
    exact ih
  | @step ops film c hc _ h s ih =>
    obtain ⟨hppu, hfilm, hready⟩ := ih
    obtain ⟨_, htaken, _, hafter⟩ := film_step h s hc.reachable hready
    refine ⟨?_, ?_, hafter⟩
    · rw [← replay_deeds, ppu_replay, hppu, run_append]
    · rw [step_filming, htaken, hfilm, completed_append, hppu]

theorem Reachable.frameReady (hc : Reachable c) : c.system.ppu.frameReady = false := by
  obtain ⟨ops, film, hfilmed⟩ := hc.filmed
  exact hfilmed.film_eq.2.2

/-- **Every picture is whole, and is handed out once.**  However dots, accesses, copies and resets
come one after the other, the picture that is shown changes with the start of a blank only, and the
one that is being drawn by strokes only.  Between one start of a blank and the next each cell is
drawn once, that in the line `y` and the column `x` at the line `y` and the dot `x + 1`, and what is
shown after the second start are the pixels that were drawn in between.

A step of the console has one start of a blank at most.  If it has one, the host is given the
picture that was completed, once and before another pixel is drawn; if it has none, the host is
given no picture.  So in every run the pictures that the hosts are given are those that the picture
unit has completed since power-on. -/
theorem film_whole :
    (∀ {γ : Type} [PictureBus γ] (p : Ppu) (op : Op γ),
      (op.completes p = false → (op.act p).front = p.front) ∧
      (op.act p).back =
        if op.completes p then p.front else paint p.back (op.stroke? p).toList) ∧
    (∀ {γ : Type} [PictureBus γ] (before between : List (Op γ)) (first last : Op γ),
      first.completes (Ppu.powerOn.run before) = true →
      (Ppu.powerOn.run (before ++ [first])).completed between = [] →
      last.completes (Ppu.powerOn.run (before ++ [first] ++ between)) = true →
      let drawn := (Ppu.powerOn.run (before ++ [first])).strokes between
      drawn.map (fun s => (s.line, s.dot)) =
          (List.range (256 * 240)).map (fun cell => (cell / 256, cell % 256 + 1)) ∧
        (Ppu.powerOn.run (before ++ [first] ++ between ++ [last])).front.toList =
          drawn.map Stroke.colour) ∧
    (∀ {η : Type} (h : Host η) (s : η) (film : List Picture) (c : Console), Reachable c →
      let ops := c.system.ops (c.deeds h s)
      (c.system.ppu.completed ops).length ≤ 1 ∧
      c.step h.filming (s, film) =
        ((c.step h s).1, (c.step h s).2.1, (c.step h s).2.2,
          film ++ c.system.ppu.completed ops) ∧
      ∀ before entry after, ops = before ++ entry :: after →
        entry.completes (c.system.ppu.run before) = true →
          (entry.act (c.system.ppu.run before)).strokes after = []) ∧
    ∀ ops film c, Filmed ops film c →
      c.system.ppu = Ppu.powerOn.run ops ∧ film = Ppu.powerOn.completed ops := by
  refine ⟨?_, ?_, ?_, ?_⟩
  · intro γ _ p op
    refine ⟨fun hop => ?_, back_act p op⟩
    rw [front_act, hop, if_neg Bool.false_ne_true]
  · intro γ _ before between first last hfirst hbetween hlast
    rw [run_append, run_append] at hlast
    rw [run_append] at hbetween
    simp only [run_append]
    exact front_whole (Timely.powerOn.run before) hfirst hbetween hlast
  · intro η h s film c hc ops
    obtain ⟨hone, htaken, hticks, _⟩ := film_step h s hc hc.frameReady
    refine ⟨hone, by rw [step_filming, htaken], fun before entry after hops hentry => ?_⟩
    refine strokes_after (hc.timely.run before) hentry ?_
    change ops.countP Op.isTick ≤ 1602 at hticks
    rw [hops, List.countP_append, List.countP_cons] at hticks
    omega
  · intro ops film c hc
    obtain ⟨hppu, hfilm, _⟩ := hc.film_eq
    exact ⟨hppu, hfilm⟩

/-- The second picture of a picture unit that draws dot after dot is whole, and the first step of a
program, with which a copy is made, completes one picture at most. -/
theorem film_whole_second :
    ∃ cart c, Cartridge.ofBytes copyingImage = .ok cart ∧ powerOn cart {} = .ok c ∧
      (c.system.ppu.completed (c.system.ops (c.deeds Host.silent ()))).length ≤ 1 ∧
      ∃ n m, ∃ tick : Op Board, tick = .tick c.system.board ∧
        tick.completes (Ppu.powerOn.run (List.replicate n tick)) = true ∧
        (Ppu.powerOn.run (List.replicate n tick ++ [tick] ++ List.replicate m tick ++
            [tick])).front.toList =
          ((Ppu.powerOn.run (List.replicate n tick ++ [tick])).strokes
            (List.replicate m tick)).map Stroke.colour := by
  obtain ⟨cart, c, hcart, hc, -⟩ := step_copying
  obtain ⟨-, hwhole, hstep, -⟩ := film_whole
  obtain ⟨n, hfirst, -⟩ := Timely.powerOn.exists_completes c.system.board
  obtain ⟨m, hlast, hbetween⟩ := (Timely.powerOn.run
    (List.replicate n (Op.tick c.system.board) ++ [.tick c.system.board])).exists_completes
      c.system.board
  rw [← run_append] at hlast
  exact ⟨cart, c, hcart, hc, (hstep Host.silent () [] c (.powerOn hc)).1, n, m, _, rfl, hfirst,
    (hwhole _ _ _ _ hfirst hbetween hlast).2⟩

end Console

end Nes
