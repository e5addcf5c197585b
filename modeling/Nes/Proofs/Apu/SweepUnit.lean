import Nes.Proofs.Apu.Channels
import Nes.Proofs.Countdown

/-!
# The path of a sweep

Besides writes, only the ends of half frames concern the sweep unit (`Pulse.sweep_on`,
`Pulse.period_on`).  They clock its divider, so that the clocks at which a sweep is due are known
from the state in which the unit was last written (`Sweep.Due`, `Pulse.sweeps_run`): without a
pending reload the first one follows when the divider has run down, and with one a round later.

A sweep leads up or down and not too far up, and a channel that is muted stays as it is, since the
period that mutes it is no longer changed (`Pulse.muted_run`).  `Pulse.sweep_trajectory` puts this
together.
-/

namespace Nes.Apu

open Countdown

/-! ### The divider -/

namespace Sweep

/-- The divider runs down and starts over. -/
theorem iterate_clockDivider {s : Sweep} (hreload : s.reload = false) (n : Nat) :
    clockDivider^[n] s = { s with divider := left s.divider s.period n } := by
  induction n with
  | zero => rw [left_zero]; rfl
  | succ n ih =>
    rw [Function.iterate_succ_apply', ih, left_succ]
    simp only [clockDivider, hreload, Bool.false_eq_true, or_false]
    split_ifs <;> rfl

/-- A pending reload starts the divider over. -/
theorem clockDivider_of_reload {s : Sweep} (hreload : s.reload = true) :
    s.clockDivider = { s with divider := s.period, reload := false } := if_pos (Or.inr hreload)

/-- What stays the same as the divider is clocked. -/
theorem settings_iterate (s : Sweep) (n : Nat) :
    (clockDivider^[n] s).enabled = s.enabled ∧ (clockDivider^[n] s).negate = s.negate ∧
      (clockDivider^[n] s).shift = s.shift := by
  induction n with
  | zero => exact ⟨rfl, rfl, rfl⟩
  | succ n ih =>
    rw [Function.iterate_succ_apply', clockDivider]
    split_ifs <;> exact ih

/-- A sweep is due at a clock of the unit: the divider has run down before it. -/
def Due (s : Sweep) (clock : Nat) : Prop :=
  if s.reload then ∃ k, clock = 1 + (s.period + 1) * k ∧ (k = 0 → s.divider = 0)
  else ∃ k, clock = s.divider + 1 + (s.period + 1) * k

theorem divider_eq_zero_iff (s : Sweep) (n : Nat) :
    (clockDivider^[n] s).divider = 0 ↔ s.Due (n + 1) := by
  cases hreload : s.reload with
  | false =>
    rw [iterate_clockDivider hreload, left_eq_zero_iff, Due, if_neg (Bool.eq_false_iff.1 hreload)]
    exact exists_congr fun k => by omega
  | true =>
    rw [Due, if_pos hreload]
    cases n with
    | zero =>
      refine ⟨fun hzero => ⟨0, rfl, fun _ => hzero⟩, fun ⟨k, hclock, hzero⟩ => hzero ?_⟩
      cases k with
      | zero => rfl
      | succ k =>
        rw [Nat.mul_succ] at hclock
        omega
    | succ n =>
      rw [Function.iterate_succ_apply, clockDivider_of_reload hreload, iterate_clockDivider rfl,
        left_eq_zero_iff]
      -- The round that the reload begins is the first that counts.
      constructor
      · rintro ⟨k, rfl⟩
        refine ⟨k + 1, ?_, nofun⟩
        dsimp only
        rw [Nat.mul_succ]
        omega
      · rintro ⟨k, hclock, -⟩
        cases k with
        | zero => omega
        | succ k =>
          rw [Nat.mul_succ] at hclock
          exact ⟨k, by dsimp only; omega⟩

/-! ### The target -/

theorem target_down {s : Sweep} (hnegate : s.negate = true) (channel : PulseChannel)
    (period : Nat) : s.target channel period ≤ period := by
  simp only [target, hnegate, ↓reduceIte]
  cases channel <;> exact Nat.sub_le ..

theorem target_up {s : Sweep} (hnegate : s.negate = false) (channel : PulseChannel)
    (period : Nat) : period ≤ s.target channel period := by
  simp only [target, hnegate, Bool.false_eq_true, ↓reduceIte]
  exact Nat.le_add_right ..

/-- The first channel aims one lower. -/
theorem target_one {s : Sweep} (hnegate : s.negate = true) (period : Nat) :
    s.target .one period = s.target .two period - 1 := by
  simp only [target, hnegate, ↓reduceIte]
  exact Nat.sub_add_eq ..

/-- There is room below the target of a sweep that changes the period. -/
theorem target_two_pos {s : Sweep} (hnegate : s.negate = true) (hshift : 0 < s.shift)
    {period : Nat} (hperiod : 0 < period) : 0 < s.target .two period := by
  simp only [target, hnegate, ↓reduceIte, Nat.shiftRight_eq_div_pow]
  exact Nat.sub_pos_of_lt (Nat.div_lt_self hperiod (Nat.one_lt_two_pow hshift.ne'))

theorem target_congr {s t : Sweep} (hnegate : s.negate = t.negate) (hshift : s.shift = t.shift) :
    s.target = t.target := by
  funext channel period
  simp only [target, hnegate, hshift]

end Sweep

namespace Pulse

variable {p : Pulse} {e : Event} {es : List Event}

theorem muted_iff : p.muted = true ↔ p.period < 8 ∨ 0x7FF < p.target := by
  rw [muted, Bool.or_eq_true, decide_eq_true_eq, decide_eq_true_eq]

theorem sweeps_iff :
    p.sweeps = true ↔
      p.sweep.divider = 0 ∧ p.sweep.enabled = true ∧ 0 < p.sweep.shift ∧ p.muted = false := by
  simp only [sweeps, Bool.and_eq_true, beq_iff_eq, decide_eq_true_eq, Bool.not_eq_true', and_assoc]

/-! ### Events -/

/-- Besides writes, only the ends of half frames clock the sweep unit. -/
theorem sweep_on (he : e.isWrite = false) :
    (p.on e).sweep = if e.isHalf then p.sweep.clockDivider else p.sweep := by
  cases e with
  | tick =>
    change p.tick.sweep = p.sweep
    unfold tick
    split_ifs <;> rfl
  | write register v => exact Bool.noConfusion he
  | _ => rfl

/-- Besides writes, only sweeps change the period. -/
theorem period_on (he : e.isWrite = false) :
    (p.on e).period = if e.isHalf && p.sweeps then p.target else p.period := by
  cases e with
  | tick =>
    change p.tick.period = p.period
    unfold tick
    split_ifs <;> rfl
  | write register v => exact Bool.noConfusion he
  | _ => rfl

theorem channel_on (he : e.isWrite = false) : (p.on e).channel = p.channel := by
  cases e with
  | tick =>
    change p.tick.channel = p.channel
    unfold tick
    split_ifs <;> rfl
  | write register v => exact Bool.noConfusion he
  | _ => rfl

theorem settings_on (he : e.isWrite = false) :
    (p.on e).sweep.enabled = p.sweep.enabled ∧ (p.on e).sweep.negate = p.sweep.negate ∧
      (p.on e).sweep.shift = p.sweep.shift := by
  rw [sweep_on he]
  split
  · exact p.sweep.settings_iterate 1
  · exact ⟨rfl, rfl, rfl⟩

/-- An event that leaves the period alone leaves the target alone. -/
theorem target_on (he : e.isWrite = false) (hperiod : (p.on e).period = p.period) :
    (p.on e).target = p.target := by
  obtain ⟨-, hnegate, hshift⟩ := p.settings_on he
  rw [target, target, channel_on he, hperiod, Sweep.target_congr hnegate hshift]

/-- Something that changes the period is a sweep. -/
theorem sweep_of_ne (he : e.isWrite = false) (hne : (p.on e).period ≠ p.period) :
    e = .half ∧ p.sweeps = true := by
  rw [period_on he] at hne
  split at hne
  · next h =>
    obtain ⟨hhalf, hsweeps⟩ := Bool.and_eq_true_iff.1 h
    refine ⟨?_, hsweeps⟩
    cases e <;> first | rfl | exact Bool.noConfusion hhalf
  · exact absurd rfl hne

/-- A sweep leads to no period that would be too long. -/
theorem period_le_on (hle : p.period ≤ 0x7FF) (he : e.isWrite = false) :
    (p.on e).period ≤ 0x7FF := by
  by_cases hperiod : (p.on e).period = p.period
  · rwa [hperiod]
  · obtain ⟨rfl, hsweeps⟩ := sweep_of_ne he hperiod
    have hmuted := (sweeps_iff.1 hsweeps).2.2.2
    rw [Bool.eq_false_iff, Ne, muted_iff, not_or] at hmuted
    rw [period_on rfl, hsweeps]
    exact Nat.le_of_not_lt hmuted.2

/-- A sweep that does not negate leads up. -/
theorem period_le_period_on (hnegate : p.sweep.negate = false) (he : e.isWrite = false) :
    p.period ≤ (p.on e).period := by
  rw [period_on he]
  split
  · exact Sweep.target_up hnegate ..
  · exact Nat.le_refl _

/-- A sweep that negates leads down. -/
theorem period_on_le_period (hnegate : p.sweep.negate = true) (he : e.isWrite = false) :
    (p.on e).period ≤ p.period := by
  rw [period_on he]
  split
  · exact Sweep.target_down hnegate ..
  · exact Nat.le_refl _

/-- Nothing but a write moves the period of a channel that is muted. -/
theorem muted_on (hmuted : p.muted = true) (he : e.isWrite = false) :
    (p.on e).muted = true ∧ (p.on e).period = p.period := by
  have hperiod : (p.on e).period = p.period := by
    by_contra hne
    have hsweeps := (sweep_of_ne he hne).2
    rw [sweeps_iff, hmuted] at hsweeps
    exact Bool.noConfusion hsweeps.2.2.2
  refine ⟨?_, hperiod⟩
  rw [muted_iff] at hmuted ⊢
  rwa [target_on he hperiod, hperiod]

theorem output_of_muted (hmuted : p.muted = true) : p.output = 0 := by
  rw [output, hmuted, Bool.not_true, Bool.and_false]
  rfl

/-! ### Runs -/

theorem sweep_run (hwrites : ∀ e ∈ es, e.isWrite = false) :
    (p.run es).sweep = Sweep.clockDivider^[es.countP Event.isHalf] p.sweep :=
  part_foldl Pulse.on sweep Sweep.clockDivider Event.isHalf fun _ _ hbefore =>
    sweep_on (isWrite_upTo hwrites hbefore).2

theorem settings_run (hwrites : ∀ e ∈ es, e.isWrite = false) :
    (p.run es).sweep.enabled = p.sweep.enabled ∧ (p.run es).sweep.negate = p.sweep.negate ∧
      (p.run es).sweep.shift = p.sweep.shift := by
  rw [sweep_run hwrites]
  exact p.sweep.settings_iterate _

theorem channel_run (hwrites : ∀ e ∈ es, e.isWrite = false) :
    (p.run es).channel = p.channel :=
  run_induction (P := fun q : Pulse => q.channel = p.channel)
    (fun _ _ he h => (channel_on he).trans h) hwrites rfl

/-- **When the unit sweeps.** -/
theorem sweeps_run (hwrites : ∀ e ∈ es, e.isWrite = false) :
    (p.run es).sweeps = true ↔
      p.sweep.Due (es.countP Event.isHalf + 1) ∧ p.sweep.enabled = true ∧ 0 < p.sweep.shift ∧
        (p.run es).muted = false := by
  obtain ⟨henabled, -, hshift⟩ := p.settings_run hwrites
  rw [sweeps_iff, henabled, hshift, sweep_run hwrites, Sweep.divider_eq_zero_iff]

theorem period_le_run (hle : p.period ≤ 0x7FF) (hwrites : ∀ e ∈ es, e.isWrite = false) :
    (p.run es).period ≤ 0x7FF :=
  run_induction (P := fun q : Pulse => q.period ≤ 0x7FF)
    (fun _ _ he h => period_le_on h he) hwrites hle

theorem period_le_period_run (hnegate : p.sweep.negate = false)
    (hwrites : ∀ e ∈ es, e.isWrite = false) : p.period ≤ (p.run es).period := by
  refine (run_induction (P := fun q : Pulse => q.sweep.negate = false ∧ p.period ≤ q.period)
    (fun q e he ⟨hq, hle⟩ => ?_) hwrites ⟨hnegate, Nat.le_refl _⟩).2
  exact ⟨(settings_on he).2.1.trans hq, hle.trans (period_le_period_on hq he)⟩

theorem period_run_le_period (hnegate : p.sweep.negate = true)
    (hwrites : ∀ e ∈ es, e.isWrite = false) : (p.run es).period ≤ p.period := by
  refine (run_induction (P := fun q : Pulse => q.sweep.negate = true ∧ q.period ≤ p.period)
    (fun q e he ⟨hq, hle⟩ => ?_) hwrites ⟨hnegate, Nat.le_refl _⟩).2
  exact ⟨(settings_on he).2.1.trans hq, (period_on_le_period hq he).trans hle⟩

/-- A unit that is not enabled leaves the period alone. -/
theorem period_run_of_disabled (hdisabled : p.sweep.enabled = false)
    (hwrites : ∀ e ∈ es, e.isWrite = false) : (p.run es).period = p.period := by
  refine (run_induction (P := fun q : Pulse => q.sweep.enabled = false ∧ q.period = p.period)
    (fun q e he ⟨hq, hperiod⟩ => ?_) hwrites ⟨hdisabled, rfl⟩).2
  refine ⟨(settings_on he).1.trans hq, Eq.trans ?_ hperiod⟩
  by_contra hne
  have hsweeps := (sweeps_iff.1 (sweep_of_ne he hne).2).2.1
  rw [hq] at hsweeps
  exact Bool.noConfusion hsweeps

/-- **A muted channel stays muted** until it is written. -/
theorem muted_run (hmuted : p.muted = true) (hwrites : ∀ e ∈ es, e.isWrite = false) :
    (p.run es).muted = true ∧ (p.run es).period = p.period :=
  run_induction (P := fun q : Pulse => q.muted = true ∧ q.period = p.period)
    (fun _ _ he h => ⟨(muted_on h.1 he).1, (muted_on h.1 he).2.trans h.2⟩) hwrites ⟨hmuted, rfl⟩

/-! ### The two channels -/

/-- Where a sweep leads down, the period alone decides whether a channel is muted. -/
theorem muted_iff_of_negate (hnegate : p.sweep.negate = true) (hle : p.period ≤ 0x7FF) :
    p.muted = true ↔ p.period < 8 := by
  have hdown : p.target ≤ p.period := Sweep.target_down hnegate ..
  rw [muted_iff]
  omega

/-- **The first channel goes one lower** with a sweep than the second one would. -/
theorem one_below_two (hone : p.channel = .one) (hnegate : p.sweep.negate = true)
    (hle : p.period ≤ 0x7FF) :
    ({ p with channel := .two }.on .half).period =
      (p.on .half).period + if p.sweeps then 1 else 0 := by
  have hsweeps : { p with channel := .two }.sweeps = p.sweeps := by
    rw [Bool.eq_iff_iff, sweeps_iff, sweeps_iff, Bool.eq_false_iff, Bool.eq_false_iff, Ne, Ne,
      muted_iff_of_negate hnegate hle, @muted_iff_of_negate { p with channel := .two } hnegate hle]
  have htarget : p.target = p.sweep.target .one p.period := by rw [target, hone]
  rw [period_on rfl, period_on rfl, hsweeps, htarget, Sweep.target_one hnegate]
  cases h : p.sweeps with
  | false => rfl
  | true =>
    obtain ⟨-, -, hshift, hmuted⟩ := sweeps_iff.1 h
    have hlong : ¬p.period < 8 := by
      rw [← muted_iff_of_negate hnegate hle]
      exact Bool.eq_false_iff.1 hmuted
    have hroom := Sweep.target_two_pos hnegate hshift (show 0 < p.period by omega)
    exact (Nat.sub_add_cancel hroom).symm

/-- **The path of a sweep.**  A pulse channel whose period is at most `$7FF` is not written.

* Its period changes only at clocks of the sweep unit at which a sweep is due, and it does change
  to the target at those if the unit is enabled, its shift is not zero and the channel not muted.
* It never exceeds `$7FF`.  It never falls without the negation, and never rises with it.
* With the negation the first channel aims one lower than the second one would, down to zero, and a
  sweep brings it exactly one lower.
* If the channel is muted it stays so and is silent, and its period never changes, whether the
  sweep unit is enabled or not. -/
theorem sweep_trajectory {p : Pulse} {es : List Event} (hle : p.period ≤ 0x7FF)
    (hwrites : ∀ e ∈ es, e.isWrite = false) :
    let q := p.run es
    let clock := es.countP Event.isHalf + 1
    (∀ e, e.isWrite = false → (q.on e).period ≠ q.period → e = .half ∧ p.sweep.Due clock) ∧
    (p.sweep.Due clock → p.sweep.enabled = true → 0 < p.sweep.shift → q.muted = false →
      (q.on .half).period = q.target) ∧
    q.period ≤ 0x7FF ∧
    (p.sweep.negate = false → p.period ≤ q.period) ∧
    (p.sweep.negate = true → q.period ≤ p.period) ∧
    (p.sweep.negate = true → p.channel = .one →
      let other := { q with channel := .two }
      q.target = other.target - 1 ∧
        (other.on .half).period = (q.on .half).period + if q.sweeps then 1 else 0) ∧
    (p.muted = true → q.muted = true ∧ q.period = p.period ∧ q.output = 0) := by
  intro q clock
  have hsweeps : q.sweeps = true ↔ p.sweep.Due clock ∧ p.sweep.enabled = true ∧
    0 < p.sweep.shift ∧ q.muted = false := sweeps_run hwrites
  refine ⟨fun e he hne => ?_, fun hdue henabled hshift hmuted => ?_, period_le_run hle hwrites,
    fun hnegate => period_le_period_run hnegate hwrites,
    fun hnegate => period_run_le_period hnegate hwrites, fun hnegate hone => ?_,
    fun hmuted => ?_⟩
  · obtain ⟨hhalf, hsweep⟩ := sweep_of_ne he hne
    exact ⟨hhalf, (hsweeps.1 hsweep).1⟩
  · rw [period_on rfl, hsweeps.2 ⟨hdue, henabled, hshift, hmuted⟩]
    rfl
  · have hnegate : q.sweep.negate = true := (settings_run hwrites).2.1.trans hnegate
    have hone : q.channel = .one := (channel_run hwrites).trans hone
    refine ⟨?_, one_below_two hone hnegate (period_le_run hle hwrites)⟩
    rw [target, hone]
    exact Sweep.target_one hnegate _
  · obtain ⟨hmuted, hperiod⟩ := muted_run hmuted hwrites
    exact ⟨hmuted, hperiod, output_of_muted hmuted⟩

/-- With a reload pending the first sweep comes a round after it, wherever the divider stands.  A
target that is too high silences the channel although its unit is not enabled. -/
theorem sweep_trajectory_reload :
    let down : Pulse := {
      channel := .one
      period := 0x400
      sweep := { enabled := true, period := 1, negate := true, shift := 1, divider := 5,
                 reload := true } }
    let high : Pulse := { channel := .two, period := 0x600, sweep := { shift := 1 } }
    let es : List Event := [.half, .tick, .half]
    ((down.run es).on .half).period = 0x1FF ∧ (down.run es).period ≤ down.period ∧
      ({ down.run es with channel := .two }.on .half).period = 0x200 ∧
      (high.run es).output = 0 := by
  intro down high es
  have hwrites : ∀ e ∈ es, e.isWrite = false := by decide
  obtain ⟨-, hsweep, -, -, hdown, htwo, -⟩ :=
    sweep_trajectory (show down.period ≤ 0x7FF by decide) hwrites
  obtain ⟨-, -, -, -, -, -, hmuted⟩ := sweep_trajectory (show high.period ≤ 0x7FF by decide) hwrites
  have hperiod := hsweep ((if_pos rfl).mpr ⟨1, rfl, nofun⟩) rfl (by decide) (by decide)
  exact ⟨hperiod.trans (by decide), hdown rfl, (htwo rfl rfl).2.trans (by decide),
    (hmuted (by decide)).2.2⟩

end Pulse

end Nes.Apu
