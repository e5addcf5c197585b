import Nes.Proofs.System.Deeds

/-!
# Waiting comes to an end

While the processor waits, the sample channel may fetch further bytes, for each of which it waits
longer.  Still every wait ends, from any state of the system, because a byte that costs four cycles
cannot be wanted more often than once in eight: twice the cycles to wait and the load of the channel
(`Apu.Dmc.load`) shrink together with every cycle (`System.work_tickOne`), and the bound of
`System.drain` lies above them (`System.waits_drain`).

`Waits s n s'` is a wait of `n` cycles taken one by one.  `Drains s n s'` is the same wait as a
processor makes it that takes all cycles which are due at once, lets them pass, and looks again
(`Waits.drains`).  With a channel whose timer was set by its register, an instruction and the wait
after it take 534 cycles at most (`System.drain_le`).
-/

namespace Nes

namespace System

theorem feedSamples_cases (s : System) :
    s.apu.dmc.wants = false ∧ s.feedSamples = s ∨
      s.apu.dmc.wants = true ∧
        ∃ v, s.feedSamples = { s with apu := s.apu.feed v, stall := s.stall + 4 } := by
  cases h : s.apu.dmc.wants
  · exact Or.inl ⟨rfl, feedSamples_of_not_wants h⟩
  · rw [← Apu.Dmc.fetchAddress_isSome] at h
    obtain ⟨addr, haddr⟩ := Option.isSome_iff_exists.1 h
    refine Or.inr ⟨rfl, s.board.prgRead addr, ?_⟩
    unfold feedSamples
    rw [haddr]
    rfl

/-- A cycle of the sample channel within one of the processor. -/
theorem dmc_stall_tickOne (s : System) :
    (∃ v, s.tickOne.apu.dmc = s.apu.dmc.cycle v) ∧
      s.tickOne.stall = s.stall + 4 * s.apu.dmc.fetched := by
  have hdmc : ({ s.threeDots with apu := s.apu.tick } : System).apu.dmc = s.apu.dmc.tick :=
    Apu.dmc_tick s.apu
  have htick : s.tickOne.apu = ({ s.threeDots with apu := s.apu.tick } : System).feedSamples.apu ∧
      s.tickOne.stall = ({ s.threeDots with apu := s.apu.tick } : System).feedSamples.stall :=
    ⟨rfl, rfl⟩
  rw [htick.1, htick.2]
  rcases feedSamples_cases { s.threeDots with apu := s.apu.tick } with ⟨hw, hf⟩ | ⟨hw, v, hf⟩
  · rw [hdmc] at hw
    rw [hf, hdmc]
    refine ⟨⟨0, ?_⟩, ?_⟩
    · rw [Apu.Dmc.cycle, hw]
      rfl
    · rw [Apu.Dmc.fetched, hw]
      rfl
  · rw [hdmc] at hw
    rw [hf]
    refine ⟨⟨v, ?_⟩, ?_⟩
    · rw [Apu.Dmc.cycle, hw, ← hdmc]
      rfl
    · rw [Apu.Dmc.fetched, hw]
      rfl

/-- Twice the cycles to wait, with those that may be added. -/
def work (s : System) : Nat := 2 * s.stall + s.apu.dmc.load

theorem work_tickOne {s : System} (h : s.stall ≠ 0) :
    ({ s with stall := s.stall - 1 } : System).tickOne.work < s.work := by
  obtain ⟨⟨v, hdmc⟩, hstall⟩ := dmc_stall_tickOne { s with stall := s.stall - 1 }
  have hload := s.apu.dmc.load_cycle v
  simp only [work, hdmc, hstall]
  omega

end System

/-- A wait of some cycles, one by one, until there is nothing to wait for. -/
inductive Waits : System → Nat → System → Prop
  /-- There is nothing to wait for. -/
  | done {s : System} (h : s.stall = 0) : Waits s 0 s
  /-- A cycle is waited. -/
  | wait {s s' : System} {n : Nat} (h : s.stall ≠ 0)
    (hs : Waits ({ s with stall := s.stall - 1 } : System).tickOne n s') : Waits s (n + 1) s'

/-- A wait as the processor makes it: all cycles that are due pass, until none are. -/
inductive Drains : System → Nat → System → Prop
  /-- No cycles are due. -/
  | done {s : System} (h : s.takeStall.1 = 0) : Drains s 0 s.takeStall.2
  /-- The cycles that are due pass. -/
  | again {s s' : System} {n : Nat} (h : s.takeStall.1 ≠ 0)
    (hs : Drains (s.takeStall.2.tick s.takeStall.1) n s') : Drains s (s.takeStall.1 + n) s'

theorem System.waits_drainWithin {s : System} {fuel : Nat} (h : s.work ≤ fuel) (done : Nat) :
    ∃ n, (s.drainWithin done fuel).1 = done + n ∧ Waits s n (s.drainWithin done fuel).2 := by
  induction fuel generalizing s done with
  | zero =>
    have hstall : s.stall = 0 := by
      simp only [System.work] at h
      omega
    exact ⟨0, rfl, .done hstall⟩
  | succ fuel ih =>
    unfold System.drainWithin
    by_cases hstall : s.stall = 0
    · rw [if_pos hstall]
      exact ⟨0, rfl, .done hstall⟩
    · rw [if_neg hstall]
      have hwork := System.work_tickOne hstall
      obtain ⟨n, hn, hwaits⟩ := ih (s := ({ s with stall := s.stall - 1 } : System).tickOne)
        (by omega) (done + 1)
      exact ⟨n + 1, by omega, .wait hstall hwaits⟩

/-- **Every wait ends,** and within its bound. -/
theorem System.waits_drain (s : System) : Waits s s.drain.1 s.drain.2 := by
  have hload := s.apu.dmc.load_le
  have hwork : s.work ≤ s.drainBound := by
    simp only [System.work, System.drainBound]
    omega
  obtain ⟨n, hn, hwaits⟩ := System.waits_drainWithin hwork 0
  rw [System.drain, hn, Nat.zero_add]
  exact hwaits

theorem Waits.stall_eq_zero {s s' : System} {n : Nat} (h : Waits s n s') : s'.stall = 0 := by
  induction h with
  | done h => exact h
  | wait _ _ ih => exact ih

/-! ### The wait as the processor makes it -/

namespace System

/-- More cycles to wait. -/
def owing (s : System) (k : Nat) : System := { s with stall := s.stall + k }

theorem tickOne_owing (s : System) (k : Nat) : (s.owing k).tickOne = s.tickOne.owing k := by
  have hfeed : ∀ q : System, (q.owing k).feedSamples = q.feedSamples.owing k := by
    intro q
    have haddr : (q.owing k).apu.dmc.fetchAddress = q.apu.dmc.fetchAddress := rfl
    unfold feedSamples
    rw [haddr]
    cases q.apu.dmc.fetchAddress with
    | none => rfl
    | some addr =>
      change ({ q with
        apu := q.apu.feed (q.board.prgRead addr), stall := q.stall + k + 4 } : System) = _
      rw [Nat.add_right_comm]
      rfl
  have htick : ∀ q : System, q.tickOne =
      (let f := ({ q.threeDots with apu := q.apu.tick } : System).feedSamples
      { f with board := f.board.clockCycle, cycles := f.cycles + 1 }) := fun _ => rfl
  rw [htick, htick]
  have hbefore : ({ (s.owing k).threeDots with apu := (s.owing k).apu.tick } : System) =
      ({ s.threeDots with apu := s.apu.tick } : System).owing k := rfl
  rw [hbefore, hfeed]
  rfl

end System

/-- Cycles that are due at the start may pass at once. -/
theorem Waits.tick {s s' : System} {n k : Nat} (h : Waits (s.owing k) n s') :
    k ≤ n ∧ Waits (s.tick k) (n - k) s' := by
  induction k generalizing s n with
  | zero => exact ⟨Nat.zero_le n, h⟩
  | succ k ih =>
    cases h with
    | done h0 => exact absurd h0 (Nat.succ_ne_zero _)
    | @wait _ _ n _ hs =>
      have hstep : ({ s.owing (k + 1) with stall := (s.owing (k + 1)).stall - 1 } : System) =
          s.owing k := rfl
      rw [hstep, System.tickOne_owing] at hs
      obtain ⟨hle, hw⟩ := ih hs
      rw [Nat.add_sub_add_right]
      exact ⟨Nat.succ_le_succ hle, hw⟩

theorem Waits.drains {s s' : System} {n : Nat} (h : Waits s n s') : Drains s n s' := by
  induction n using Nat.strongRecOn generalizing s with
  | ind n ih =>
    by_cases h0 : s.stall = 0
    · cases h with
      | done _ =>
        have hs : s'.takeStall.2 = s' := by
          unfold System.takeStall
          rw [← h0]
        have hdone := Drains.done h0
        rw [hs] at hdone
        exact hdone
      | wait hne _ => exact absurd h0 hne
    · have howing : s.takeStall.2.owing s.stall = s := by
        simp only [System.takeStall, System.owing, Nat.zero_add]
      rw [← howing] at h
      obtain ⟨hle, hw⟩ := h.tick
      have hdrains := ih (n - s.stall) (by omega) hw
      have hagain := Drains.again (s := s) h0 hdrains
      have hn : s.takeStall.1 + (n - s.stall) = n := Nat.add_sub_cancel' hle
      rw [hn] at hagain
      exact hagain

/-! ### How long an instruction makes the processor wait -/

/-- The cycles `j` that have passed of those that the instruction uses, the copy it starts and the
bytes fetched so far take together. -/
structure Waiting (due j : Nat) (s : System) : Prop where
  /-- At most three bytes have been fetched. -/
  pace : ∃ f ≤ 3, Apu.Dmc.Pace j f s.apu.dmc ∧ s.stall + j = due + 4 * f
  /-- Time has not passed beyond what is due. -/
  le : j ≤ due + 12

theorem Waiting.tickOne {due j : Nat} {s : System} (h : Waiting due j s) (hdue : due ≤ 522)
    (hstall : s.stall ≠ 0) :
    Waiting due (j + 1) ({ s with stall := s.stall - 1 } : System).tickOne := by
  obtain ⟨⟨f, hf, hpace, heq⟩, hle⟩ := h
  obtain ⟨⟨v, hdmc⟩, hst⟩ := System.dmc_stall_tickOne { s with stall := s.stall - 1 }
  have hpace' := hpace.cycle v
  have hf' := hpace'.fetched_le (by omega)
  refine ⟨⟨f + s.apu.dmc.fetched, hf', ?_, ?_⟩, by omega⟩
  · rw [hdmc]
    exact hpace'
  · rw [hst]
    simp only
    omega

theorem Waits.le {due j n : Nat} {s s' : System} (hw : Waits s n s') (h : Waiting due j s)
    (hdue : due ≤ 522) : j + n ≤ due + 12 := by
  induction hw generalizing j with
  | done _ => exact h.le
  | wait hstall _ ih =>
    have := ih (h.tickOne hdue hstall)
    omega

/-- Cycles that pass may be counted as cycles of waiting. -/
theorem Waits.owing {s s' : System} {n k : Nat} (h : Waits (s.tick k) n s') :
    Waits (s.owing k) (k + n) s' := by
  induction k generalizing s with
  | zero =>
    rw [Nat.zero_add]
    exact h
  | succ k ih =>
    have hstep : ({ s.owing (k + 1) with stall := (s.owing (k + 1)).stall - 1 } : System) =
        s.owing k := rfl
    rw [Nat.succ_add]
    refine .wait (Nat.succ_ne_zero _) ?_
    rw [hstep, System.tickOne_owing]
    exact ih h

/-- **An instruction and the wait after it are short.** -/
theorem System.drain_le {s : System} (hslow : s.apu.dmc.Slow) {used : Nat}
    (hdue : s.stall + used ≤ 522) : used + (s.tick used).drain.1 ≤ s.stall + used + 12 := by
  have hwaits := (s.tick used).waits_drain.owing
  have hstart : Waiting (s.stall + used) 0 (s.owing used) :=
    ⟨⟨0, by decide, Apu.Dmc.Pace.start hslow, rfl⟩, Nat.zero_le _⟩
  have := hwaits.le hstart hdue
  omega

end Nes
