import Nes.Proofs.Apu.SweepUnit
import Mathlib.Data.Fin.Basic

/-!
# The pitch of the channels

The timers of the tone generators run down and start over, and each time the generator goes on
(`Countdown.advance`): a pulse channel by a step of eight, the triangle channel by a step of 32 if
both of its counters let it, the noise channel by a shift of its register.  As long as their
registers are not written and no sweep changes the period, nothing but ticks moves them, so that the
place of the timer and the number of rounds are those of `Countdown.left` and `Countdown.rounds`
(`Pulse.timed_run`, `Triangle.step_run`, `Noise.timed_run`).  The timer of the triangle channel runs
whether the counters let the channel go on or not (`Triangle.timer_run`).

With the ticks that a cycle means to each channel (`Voice.ticks_history`), `tones_exact` tells the
pitch of each in cycles.
-/

namespace Nes.Apu

open Countdown

/-- The steps of a sequence go around. -/
theorem val_iterate_succ {m : Nat} [NeZero m] (s : Fin m) (k : Nat) :
    ((· + 1)^[k] s).val = (s.val + k) % m := by
  induction k with
  | zero => exact (Nat.mod_eq_of_lt s.isLt).symm
  | succ k ih =>
    rw [Function.iterate_succ_apply', Fin.val_add, ih, Fin.val_one', Nat.mod_add_mod,
      Nat.add_mod_mod, Nat.add_assoc]

/-! ### Pulse channels -/

namespace Pulse

/-- The timer, and the step that it drives. -/
def timed (p : Pulse) : Nat × Fin 8 := (p.timer, p.step)

/-- Besides writes, only ticks move the sequence. -/
theorem timed_on (p : Pulse) {e : Event} (he : e.isWrite = false) :
    (p.on e).timed = if e.isTick then advance p.period (· + 1) p.timed else p.timed := by
  cases e with
  | tick =>
    change p.tick.timed = advance p.period (· + 1) (p.timer, p.step)
    unfold tick advance Countdown.tick
    split_ifs <;> rfl
  | write register v => exact Bool.noConfusion he
  | _ => rfl

/-- **The law of a pulse channel.** -/
theorem timed_run {p : Pulse} {es : List Event} (hwrites : ∀ e ∈ es, e.isWrite = false)
    (hperiod : ∀ before, before <+: es → (p.run before).period = p.period) :
    let n := es.countP Event.isTick
    (p.run es).timer = left p.timer p.period n ∧
      (p.run es).step.val = (p.step.val + rounds p.timer p.period n) % 8 := by
  intro n
  have hsteps : (p.run es).timed = (advance p.period (· + 1))^[n] (p.timer, p.step) := by
    refine part_foldl Pulse.on timed _ Event.isTick fun before e hbefore => ?_
    have hnow := hperiod before ((List.prefix_append ..).trans hbefore)
    rw [timed_on _ (isWrite_upTo hwrites hbefore).2]
    change (if _ then advance (p.run before).period _ _ else _) = _
    rw [hnow]
  rw [iterate_advance] at hsteps
  obtain ⟨htimer, hstep⟩ := Prod.mk.inj hsteps
  exact ⟨htimer, by rw [hstep, val_iterate_succ]⟩

end Pulse

/-! ### The triangle channel -/

namespace Triangle

/-- The timer, and the step that it drives. -/
def timed (t : Triangle) : Nat × Fin 32 := (t.timer, t.step)

/-- Besides writes, only ticks move the sequence, and the step only if the counters let it. -/
theorem timed_on (t : Triangle) {e : Event} (he : e.isWrite = false) :
    (t.on e).period = t.period ∧
      (t.on e).timed =
        if e.isTick then advance t.period (if t.running then (· + 1) else id) t.timed
        else t.timed := by
  cases e with
  | tick =>
    change t.tick.period = t.period ∧
      t.tick.timed = advance t.period (if t.running then (· + 1) else id) (t.timer, t.step)
    unfold tick advance Countdown.tick
    split_ifs <;> exact ⟨rfl, rfl⟩
  | write register v => exact Bool.noConfusion he
  | _ => exact ⟨rfl, rfl⟩

theorem period_run {t : Triangle} {es : List Event} (hwrites : ∀ e ∈ es, e.isWrite = false) :
    (t.run es).period = t.period :=
  run_induction (P := fun q : Triangle => q.period = t.period)
    (fun q _ he h => (q.timed_on he).1.trans h) hwrites rfl

/-- An event of a run without writes. -/
theorem timed_next {t : Triangle} {es before : List Event} {e : Event}
    (hwrites : ∀ e ∈ es, e.isWrite = false) (hbefore : before ++ [e] <+: es) :
    ((t.run before).on e).timed =
      if e.isTick then
        advance t.period (if (t.run before).running then (· + 1) else id) (t.run before).timed
      else (t.run before).timed := by
  obtain ⟨hfirst, hlast⟩ := isWrite_upTo hwrites hbefore
  rw [(timed_on _ hlast).2, period_run hfirst]

/-- The timer of the triangle channel runs, whatever the counters do. -/
theorem timer_run {t : Triangle} {es : List Event} (hwrites : ∀ e ∈ es, e.isWrite = false) :
    (t.run es).timer = left t.timer t.period (es.countP Event.isTick) := by
  rw [← iterate_tick]
  refine part_foldl Triangle.on timer _ Event.isTick fun before e hbefore => ?_
  have hnext := congrArg Prod.fst (timed_next (t := t) hwrites hbefore)
  rwa [apply_ite Prod.fst] at hnext

/-- **The law of the triangle channel.**  The step goes on with the rounds of the timer while both
counters let it at every tick, and stands still while one of them does not. -/
theorem step_run {t : Triangle} {es : List Event} (hwrites : ∀ e ∈ es, e.isWrite = false)
    {running : Bool}
    (hrunning : ∀ before, before ++ [.tick] <+: es → (t.run before).running = running) :
    (t.run es).step =
      (if running then (· + 1) else id)^[rounds t.timer t.period (es.countP Event.isTick)]
        t.step := by
  have hsteps : (t.run es).timed =
      (advance t.period (if running then (· + 1) else id))^[es.countP Event.isTick]
        (t.timer, t.step) := by
    refine part_foldl Triangle.on timed _ Event.isTick fun before e hbefore => ?_
    refine (timed_next hwrites hbefore).trans ?_
    cases e with
    | tick => rw [hrunning before hbefore]; rfl
    | _ => rfl
  rw [iterate_advance] at hsteps
  exact congrArg Prod.snd hsteps

end Triangle

/-! ### The noise channel -/

namespace Noise

/-- The timer, and the register that it shifts. -/
def timed (n : Noise) : Nat × Nat := (n.timer, n.shift)

/-- Besides writes, only ticks move the register. -/
theorem timed_on (n : Noise) {e : Event} (he : e.isWrite = false) :
    ((n.on e).period = n.period ∧ (n.on e).short = n.short) ∧
      (n.on e).timed =
        if e.isTick then advance (n.period - 1) (shifted n.short) n.timed else n.timed := by
  cases e with
  | tick =>
    change (n.tick.period = n.period ∧ n.tick.short = n.short) ∧
      n.tick.timed = advance (n.period - 1) (shifted n.short) (n.timer, n.shift)
    unfold tick advance Countdown.tick
    split_ifs <;> first | exact ⟨⟨rfl, rfl⟩, rfl⟩ | omega
  | write register v => exact Bool.noConfusion he
  | _ => exact ⟨⟨rfl, rfl⟩, rfl⟩

theorem settings_run {n : Noise} {es : List Event} (hwrites : ∀ e ∈ es, e.isWrite = false) :
    (n.run es).period = n.period ∧ (n.run es).short = n.short := by
  refine run_induction (P := fun q : Noise => q.period = n.period ∧ q.short = n.short)
    (fun q e he h => ?_) hwrites ⟨rfl, rfl⟩
  obtain ⟨⟨hperiod, hshort⟩, -⟩ := q.timed_on he
  exact ⟨hperiod.trans h.1, hshort.trans h.2⟩

/-- **The law of the noise channel.** -/
theorem timed_run {n : Noise} {es : List Event} (hwrites : ∀ e ∈ es, e.isWrite = false) :
    let ticks := es.countP Event.isTick
    (n.run es).timer = left n.timer (n.period - 1) ticks ∧
      (n.run es).shift = (shifted n.short)^[rounds n.timer (n.period - 1) ticks] n.shift := by
  intro ticks
  have hshifts : (n.run es).timed =
      (advance (n.period - 1) (shifted n.short))^[ticks] (n.timer, n.shift) := by
    refine part_foldl Noise.on timed _ Event.isTick fun before e hbefore => ?_
    obtain ⟨hfirst, hlast⟩ := isWrite_upTo hwrites hbefore
    obtain ⟨hperiod, hshort⟩ := @settings_run n before hfirst
    refine (timed_on _ hlast).2.trans ?_
    change (if _ then advance ((n.run before).period - 1) (shifted (n.run before).short) _
      else _) = _
    rw [hperiod, hshort]
  rw [iterate_advance] at hshifts
  exact Prod.mk.inj hshifts

end Noise

/-! ### Repetition -/

/-- **The sequence of a pulse channel comes around** with eight rounds.  The first round may be
longer than the others; what is left of it must not be when these begin to count. -/
theorem Pulse.step_repeats {p : Pulse} {es es' : List Event}
    (hwrites : ∀ e ∈ es ++ es', e.isWrite = false)
    (hperiod : ∀ before, before <+: es ++ es' → (p.run before).period = p.period)
    (htimer : p.timer ≤ es.countP Event.isTick + p.period)
    (hticks : es'.countP Event.isTick = (p.period + 1) * 8) :
    (p.run (es ++ es')).step = (p.run es).step := by
  have hfirst := (timed_run (List.forall_mem_append.1 hwrites).1 fun before hbefore =>
    hperiod before (hbefore.trans (List.prefix_append es es'))).2
  have hall := (timed_run hwrites hperiod).2
  rw [List.countP_append, hticks, rounds_add_mul htimer, ← Nat.add_assoc, Nat.add_mod_right,
    ← hfirst] at hall
  exact Fin.ext hall

/-- **The register of the noise channel is shifted once in a period.** -/
theorem Noise.shift_once {n : Noise} {es es' : List Event} (hpos : 0 < n.period)
    (hwrites : ∀ e ∈ es ++ es', e.isWrite = false)
    (htimer : n.timer < es.countP Event.isTick + n.period)
    (hticks : es'.countP Event.isTick = n.period) :
    (n.run (es ++ es')).shift = shifted n.short (n.run es).shift := by
  have hround := rounds_add_mul (show n.timer ≤ es.countP Event.isTick + (n.period - 1) by omega) 1
  rw [Nat.mul_one, Nat.sub_add_cancel hpos] at hround
  rw [(timed_run hwrites).2, (timed_run (List.forall_mem_append.1 hwrites).1).2,
    List.countP_append, hticks, hround, Function.iterate_succ_apply']

/-- The period is one of the table. -/
theorem Noise.period_mem_run {n : Noise} (es : List Event)
    (h : ∃ rate, n.period = periods.get rate) : ∃ rate, (n.run es).period = periods.get rate := by
  induction es generalizing n with
  | nil => exact h
  | cons e es ih =>
    refine ih ?_
    cases e with
    | write register v =>
      change ∃ rate, (n.write register v).period = periods.get rate
      unfold Noise.write
      split
      · exact h
      · exact h
      · exact ⟨_, rfl⟩
      · exact h
    | tick => exact (@timed_on n .tick rfl).1.1 ▸ h
    | _ => exact h

/-- **The pitch of the channels.**  As long as their registers are not written:

* A pulse channel whose period no sweep changes goes on with the rounds of its timer, modulo 8.  Its
  timer ticks with every second cycle, so that the step comes again after 16 times one more than the
  period, from the time on when no more is left of the first round than that period.
* The timer of the triangle channel runs with every cycle.  While both counters let it the channel
  goes on with the rounds of the timer, modulo 32, and while one does not it stands still.
* The timer of the noise channel runs with every cycle, and its period, which is always one of the
  table, is the whole length of a round: the register is shifted once in each. -/
theorem tones_exact (a : Apu) (ops : List Op) :
    let cycles := ops.countP Op.isTick
    (∀ (p : Pulse) (es : List Event), (∀ e ∈ es, e.isWrite = false) →
      (∀ before, before <+: es → (p.run before).period = p.period) →
      (p.run es).step.val =
        (p.step.val + rounds p.timer p.period (es.countP Event.isTick)) % 8) ∧
    (∀ c : PulseChannel,
      let p := a.pulse c
      let es := c.voice.history a ops
      (a.run ops).pulse c = p.run es ∧
      es.countP Event.isTick = (cycles + a.oddCycle.toNat) / 2 ∧
      ((∀ op ∈ ops, c.voice.writes op = false) →
        (∀ before, before <+: es → (p.run before).period = p.period) →
        ∀ before after, ops = before ++ after →
          p.timer ≤ (before.countP Op.isTick + a.oddCycle.toNat) / 2 + p.period →
          after.countP Op.isTick = 16 * (p.period + 1) →
          ((a.run ops).pulse c).step = ((a.run before).pulse c).step)) ∧
    ((∀ op ∈ ops, Voice.triangle.writes op = false) →
      let t := a.triangle
      let es := Voice.triangle.history a ops
      (a.run ops).triangle.timer = left t.timer t.period cycles ∧
      ((∀ before, before ++ [.tick] <+: es → (t.run before).running = true) →
        (a.run ops).triangle.step.val =
          (t.step.val + rounds t.timer t.period cycles) % 32) ∧
      ((∀ before, before ++ [.tick] <+: es → (t.run before).running = false) →
        (a.run ops).triangle.step = t.step)) ∧
    (∀ rate, a.noise.period = Noise.periods.get rate →
      let s := a.noise
      (∃ rate, (a.run ops).noise.period = Noise.periods.get rate) ∧
      ((∀ op ∈ ops, Voice.noise.writes op = false) →
        (a.run ops).noise.shift =
          (Noise.shifted s.short)^[rounds s.timer (s.period - 1) cycles] s.shift ∧
        ∀ before after, ops = before ++ after →
          s.timer < before.countP Op.isTick + s.period →
          after.countP Op.isTick = Noise.periods.get rate →
          (a.run ops).noise.shift = Noise.shifted s.short (a.run before).noise.shift)) := by
  intro cycles
  refine ⟨fun p es hwrites hperiod => (Pulse.timed_run hwrites hperiod).2, fun c => ?_,
    fun hops => ?_, fun rate hrate => ?_⟩
  · intro p es
    have hticks (before : List Op) : (c.voice.history a before).countP Event.isTick =
        (before.countP Op.isTick + a.oddCycle.toNat) / 2 := by
      rw [Voice.ticks_history]
      cases c <;> rfl
    refine ⟨pulse_run a c ops, hticks ops, ?_⟩
    rintro hops hperiod before after rfl htimer hcycles
    have hhistory := Voice.history_append c.voice a before after
    have hall := hticks (before ++ after)
    rw [List.countP_append, hhistory, List.countP_append, hticks before] at hall
    rw [pulse_run, pulse_run, hhistory]
    refine Pulse.step_repeats ?_ ?_ ?_ ?_
    · rw [← hhistory]
      exact Voice.isWrite_history a hops
    · rw [← hhistory]
      exact hperiod
    · rwa [hticks before]
    · -- Sixteen cycles are eight ticks, whether the first of them is odd or even.
      change _ = (p.period + 1) * 8
      omega
  · intro t es
    have hticks : es.countP Event.isTick = cycles := Voice.ticks_history ..
    have hwrites := Voice.isWrite_history a hops
    rw [triangle_run, ← hticks]
    refine ⟨Triangle.timer_run hwrites, fun hrunning => ?_, fun hrunning => ?_⟩
    · rw [Triangle.step_run hwrites hrunning]
      exact val_iterate_succ ..
    · rw [Triangle.step_run hwrites hrunning]
      exact congrFun (Function.iterate_id _) t.step
  · intro s
    have hticks (before : List Op) :
        (Voice.noise.history a before).countP Event.isTick = before.countP Op.isTick :=
      Voice.ticks_history ..
    rw [noise_run]
    refine ⟨Noise.period_mem_run _ ⟨rate, hrate⟩, fun hops => ⟨?_, ?_⟩⟩
    · rw [(Noise.timed_run (Voice.isWrite_history a hops)).2, hticks ops]
    · rintro before after rfl htimer hcycles
      have hhistory := Voice.history_append .noise a before after
      have hall := hticks (before ++ after)
      rw [List.countP_append, hhistory, List.countP_append, hticks before] at hall
      rw [noise_run, hhistory]
      refine Noise.shift_once (hrate ▸ Noise.periods_pos rate) ?_ ?_ ?_
      · rw [← hhistory]
        exact Voice.isWrite_history a hops
      · rwa [hticks before]
      · rw [hrate]
        omega

/-- Sixteen cycles are eight ticks of a pulse channel, which take it around with a period of zero,
and one period of the noise channel.  The triangle channel goes on, or stands still without its
linear counter. -/
theorem tones_exact_around :
    let a : Apu := { powerOn 44100 1789773 with
      pulse1 := { channel := .one, step := 5 }
      triangle := { linear := 5, step := 31, length := { value := 3 } }
      noise := { period := 16, timer := 3 } }
    let still : Apu := { a with triangle := { step := 31, length := { value := 3 } } }
    let ops : List Op := .replicate 16 .tick
    ((a.run ops).pulse .one).step = 5 ∧ (a.run ops).noise.shift = 0x4000 ∧
      (a.run [.tick]).triangle.step.val = 0 ∧ (still.run [.tick]).triangle.step = 31 := by
  intro a still ops
  have hfree : ∀ c : Voice, ∀ op ∈ ops, c.writes op = false := by
    intro c op hop
    rw [List.eq_of_mem_replicate hop]
    rfl
  have hdisabled : ∀ before, before <+: Voice.pulse1.history a ops →
      (a.pulse1.run before).period = a.pulse1.period := fun before hbefore =>
    Pulse.period_run_of_disabled rfl fun e he =>
      Voice.isWrite_history a (hfree .pulse1) e (hbefore.subset he)
  obtain ⟨-, hpulse, -, hnoise⟩ := tones_exact a ops
  obtain ⟨-, -, htriangle, -⟩ := tones_exact a [.tick]
  obtain ⟨-, -, hstill, -⟩ := tones_exact still [.tick]
  -- No frame ends with the first cycle, and the triangle channel notices nothing but the tick.
  have hfirst : ∀ before : List Event, before ++ [.tick] <+: [.tick] → before = [] := by
    intro before hbefore
    have hlength := hbefore.length_le
    rw [List.length_append] at hlength
    exact List.eq_nil_of_length_eq_zero (by simpa using hlength)
  refine ⟨(hpulse .one).2.2 (hfree .pulse1) hdisabled [] ops rfl (by decide) rfl,
    (((hnoise 2 rfl).2 (hfree .noise)).2 [] ops rfl (by decide) rfl).trans (by decide), ?_, ?_⟩
  · refine ((htriangle (by decide)).2.1 fun before hbefore => ?_).trans (by decide)
    rw [hfirst before hbefore]
    rfl
  · refine (hstill (by decide)).2.2 fun before hbefore => ?_
    rw [hfirst before hbefore]
    rfl

end Nes.Apu
