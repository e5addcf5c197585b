import Mathlib.Logic.Function.Iterate
import Mathlib.Tactic.SplitIfs

/-!
# Counters that run down

Timers and dividers count down to zero and start over with the tick after that.  A counter that
stands at `t` and starts over at `r` has done so `rounds t r n` times after `n` ticks, and then
stands at `left t r n`: the first round takes `t + 1` ticks, and each one after it `r + 1`.
-/

namespace Nes.Countdown

/-- A count completes a period or leads on in it. -/
theorem succ_div_mod {p : Nat} (hp : 0 < p) (count : Nat) :
    if count % p + 1 = p then (count + 1) / p = count / p + 1 ∧ (count + 1) % p = 0
    else (count + 1) / p = count / p ∧ (count + 1) % p = count % p + 1 := by
  have hsucc : count + 1 = count % p + 1 + p * (count / p) := by
    rw [Nat.add_right_comm, Nat.mod_add_div]
  rw [hsucc, Nat.add_mul_div_left _ _ hp, Nat.add_mul_mod_self_left]
  have hlt := Nat.mod_lt count hp
  split
  · next hlast =>
    rw [hlast, Nat.div_self hp, Nat.mod_self]
    exact ⟨Nat.add_comm .., rfl⟩
  · next hmore =>
    have hsmall : count % p + 1 < p := by omega
    rw [Nat.div_eq_of_lt hsmall, Nat.mod_eq_of_lt hsmall]
    exact ⟨Nat.zero_add _, rfl⟩

/-- How often a counter at `t` has started over at `r` after `n` ticks. -/
def rounds (t r n : Nat) : Nat := if n ≤ t then 0 else 1 + (n - t - 1) / (r + 1)

/-- Where a counter at `t` that starts over at `r` stands after `n` ticks. -/
def left (t r n : Nat) : Nat := if n ≤ t then t - n else r - (n - t - 1) % (r + 1)

variable {t r n : Nat}

@[simp] theorem rounds_zero (t r : Nat) : rounds t r 0 = 0 := if_pos (Nat.zero_le t)

@[simp] theorem left_zero (t r : Nat) : left t r 0 = t := if_pos (Nat.zero_le t)

theorem rounds_of_le (h : n ≤ t) : rounds t r n = 0 := if_pos h

theorem left_of_le (h : n ≤ t) : left t r n = t - n := if_pos h

theorem rounds_after (t r m : Nat) : rounds t r (t + 1 + m) = 1 + m / (r + 1) := by
  rw [rounds, if_neg (by omega), show t + 1 + m - t - 1 = m by omega]

theorem left_after (t r m : Nat) : left t r (t + 1 + m) = r - m % (r + 1) := by
  rw [left, if_neg (by omega), show t + 1 + m - t - 1 = m by omega]

/-- The ticks before the first round, those that end it and the rounds after it. -/
theorem tick_cases (t n : Nat) : n < t ∨ n = t ∨ ∃ m, n = t + 1 + m := by
  rcases Nat.lt_trichotomy n t with h | h | h
  · exact Or.inl h
  · exact Or.inr (Or.inl h)
  · exact Or.inr (Or.inr ⟨n - (t + 1), by omega⟩)

/-- **A tick.**  The counter starts over if it stands at zero. -/
theorem succ (t r n : Nat) :
    left t r (n + 1) = (if left t r n = 0 then r else left t r n - 1) ∧
      rounds t r (n + 1) = rounds t r n + if left t r n = 0 then 1 else 0 := by
  rcases tick_cases t n with h | rfl | ⟨m, rfl⟩
  · have hpos : t - n ≠ 0 := by omega
    rw [left_of_le h, left_of_le (Nat.le_of_lt h), rounds_of_le h, rounds_of_le (Nat.le_of_lt h),
      if_neg hpos, if_neg hpos]
    exact ⟨by omega, rfl⟩
  · have hfirst := left_after n r 0
    have hround := rounds_after n r 0
    rw [Nat.add_zero, Nat.zero_mod, Nat.sub_zero] at hfirst
    rw [Nat.add_zero, Nat.zero_div] at hround
    rw [hfirst, hround, left_of_le (Nat.le_refl n), rounds_of_le (Nat.le_refl n), Nat.sub_self,
      if_pos rfl, if_pos rfl]
    exact ⟨rfl, Nat.add_comm ..⟩
  · have hpos : 0 < r + 1 := Nat.succ_pos r
    have hlt := Nat.mod_lt m hpos
    have hsucc := succ_div_mod hpos m
    rw [Nat.add_assoc _ m 1, left_after, left_after, rounds_after, rounds_after]
    by_cases hlast : m % (r + 1) + 1 = r + 1
    · obtain ⟨hdiv, hmod⟩ := (if_pos hlast).mp hsucc
      rw [hdiv, hmod, if_pos (by omega), if_pos (by omega)]
      exact ⟨rfl, rfl⟩
    · obtain ⟨hdiv, hmod⟩ := (if_neg hlast).mp hsucc
      rw [hdiv, hmod, if_neg (by omega), if_neg (by omega)]
      exact ⟨by omega, rfl⟩

theorem left_succ (t r n : Nat) :
    left t r (n + 1) = if left t r n = 0 then r else left t r n - 1 := (succ t r n).1

theorem rounds_succ (t r n : Nat) :
    rounds t r (n + 1) = rounds t r n + if left t r n = 0 then 1 else 0 := (succ t r n).2

/-- A counter that has just started over ends a round with every `r + 1` ticks. -/
theorem rounds_self (r n : Nat) : rounds r r n = n / (r + 1) := by
  rcases Nat.lt_or_ge r n with hlt | hle
  · obtain ⟨m, rfl⟩ := Nat.exists_eq_add_of_le hlt
    rw [rounds_after, Nat.add_div_left _ (Nat.succ_pos r), Nat.add_comm]
  · rw [rounds_of_le hle, Nat.div_eq_of_lt (Nat.lt_succ_of_le hle)]

/-- The counter stands at zero before the ticks that start it over. -/
theorem left_eq_zero_iff : left t r n = 0 ↔ ∃ k, n = t + (r + 1) * k := by
  rcases tick_cases t n with h | rfl | ⟨m, rfl⟩
  · rw [left_of_le (Nat.le_of_lt h)]
    refine ⟨fun hzero => by omega, fun ⟨k, hk⟩ => by omega⟩
  · rw [left_of_le (Nat.le_refl n), Nat.sub_self]
    exact ⟨fun _ => ⟨0, rfl⟩, fun _ => rfl⟩
  · have hlt : m % (r + 1) < r + 1 := Nat.mod_lt m (Nat.succ_pos r)
    have hsplit := Nat.mod_add_div m (r + 1)
    rw [left_after]
    constructor
    · intro hzero
      refine ⟨m / (r + 1) + 1, ?_⟩
      rw [Nat.mul_succ]
      omega
    · rintro ⟨k, hk⟩
      -- The rounds after the first one end at the multiples of their length.
      obtain ⟨j, rfl⟩ : ∃ j, k = j + 1 := ⟨k - 1, by cases k with | zero => omega | succ k => rfl⟩
      rw [Nat.mul_succ] at hk
      rw [show m = r + (r + 1) * j by omega, Nat.add_mul_mod_self_left,
        Nat.mod_eq_of_lt (Nat.lt_succ_self r), Nat.sub_self]

/-- **Rounds have the same length.**  Once no more than `r` ticks are left of the first one, another
one ends with every `r + 1` ticks. -/
theorem add_round (h : t ≤ n + r) :
    left t r (n + (r + 1)) = left t r n ∧ rounds t r (n + (r + 1)) = rounds t r n + 1 := by
  rcases Nat.lt_or_ge t n with hlt | hle
  · obtain ⟨m, rfl⟩ : ∃ m, n = t + 1 + m := ⟨n - (t + 1), by omega⟩
    rw [Nat.add_assoc _ m, left_after, left_after, rounds_after, rounds_after,
      Nat.add_mod_right, Nat.add_div_right _ (Nat.succ_pos r)]
    exact ⟨rfl, rfl⟩
  · obtain ⟨m, hm⟩ : ∃ m, n + (r + 1) = t + 1 + m := ⟨n + r - t, by omega⟩
    have hsmall : m < r + 1 := by omega
    rw [hm, left_after, rounds_after, left_of_le hle, rounds_of_le hle, Nat.mod_eq_of_lt hsmall,
      Nat.div_eq_of_lt hsmall]
    exact ⟨by omega, rfl⟩

theorem rounds_add_mul (h : t ≤ n + r) (k : Nat) :
    rounds t r (n + (r + 1) * k) = rounds t r n + k := by
  induction k with
  | zero => rfl
  | succ k ih =>
    rw [Nat.mul_succ, ← Nat.add_assoc, (add_round (by omega)).2, ih, Nat.add_assoc]

/-- A tick of a counter that starts over at `r`. -/
def tick (r k : Nat) : Nat := if k = 0 then r else k - 1

theorem iterate_tick (r t n : Nat) : (tick r)^[n] t = left t r n := by
  induction n with
  | zero => exact (left_zero t r).symm
  | succ n ih => rw [Function.iterate_succ_apply', ih, left_succ, tick]

/-! ### What a counter drives -/

section

variable {α : Type}

/-- A tick of a counter that lets something go on by `f` when it starts over. -/
def advance (r : Nat) (f : α → α) (s : Nat × α) : Nat × α :=
  (tick r s.1, if s.1 = 0 then f s.2 else s.2)

/-- **What a counter drives goes on once in a round.** -/
theorem iterate_advance (r : Nat) (f : α → α) (t : Nat) (x : α) (n : Nat) :
    (advance r f)^[n] (t, x) = (left t r n, f^[rounds t r n] x) := by
  induction n with
  | zero => rw [left_zero, rounds_zero]; rfl
  | succ n ih =>
    rw [Function.iterate_succ_apply', ih, advance, left_succ, rounds_succ, tick]
    split_ifs
    · rw [Function.iterate_succ_apply']
    · rw [Nat.add_zero]

end

end Nes.Countdown
