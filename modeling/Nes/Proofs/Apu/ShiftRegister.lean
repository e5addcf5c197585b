import Nes.Proofs.Apu.Channels
import Mathlib.Data.Set.Function
import Mathlib.Order.Interval.Set.Defs

/-!
# The shift register of the noise channel

The register has 15 bits, and with all of them zero it would stay as it is for ever.  A shift does
not lead there: whichever bit the feedback comes from, the bit moved in at the top tells which one
was moved out (`Noise.unshifted`), so that a shift is a bijection of the states other than zero
(`Noise.bijOn_shifted`).

When the register is shifted, and with which feedback, depends on the timer, the period and the mode
of the channel, none of which depends on the register (`Noise.pace_on`).  What a run of events does
to the register is therefore one map, put together from the events' shifts (`Noise.shift_run`), and
a bijection like these (`Noise.bijOn_shiftRun`).  `Noise.register_lives` puts this together.
-/

namespace Nes.Apu

namespace Noise

/-- The states of the register that it does not lock up in: 15 bits, not all of them zero. -/
def states : Set Nat := Set.Icc 1 0x7FFF

/-- The register moved down until the bit that the feedback comes from is the lowest one. -/
def tap (short : Bool) (s : Nat) : Nat := if short then s / 64 else s / 2

/-- The register before a shift.  The bit that the feedback came from stands one place lower. -/
def unshifted (short : Bool) (r : Nat) : Nat :=
  r % 0x4000 * 2 + (r / 0x4000 + tap short (2 * r)) % 2

/-! ### A shift -/

section

variable (short : Bool) {s r : Nat}

theorem shifted_eq (s : Nat) : shifted short s = s / 2 + (s + tap short s) % 2 * 0x4000 := rfl

theorem shifted_lt (h : s < 0x8000) : shifted short s < 0x8000 := by
  rw [shifted_eq]
  omega

theorem unshifted_lt (r : Nat) : unshifted short r < 0x8000 := by
  unfold unshifted
  omega

/-- The bit that the feedback comes from is moved by one place, whatever comes in at the top. -/
theorem tap_moved (s bit : Nat) :
    tap short (2 * (s / 2 + bit * 0x4000)) % 2 = tap short s % 2 := by
  cases short with
  | false =>
    have hmoved : tap false (2 * (s / 2 + bit * 0x4000)) = s / 2 + bit * 0x4000 :=
      Nat.mul_div_cancel_left _ (by decide)
    rw [hmoved]
    change _ = s / 2 % 2
    omega
  | true =>
    change 2 * (s / 2 + bit * 0x4000) / 64 % 2 = s / 64 % 2
    have hmoved : 2 * (s / 2 + bit * 0x4000) / 64 = s / 64 + bit * 512 := by omega
    omega

theorem unshifted_shifted (h : s < 0x8000) : unshifted short (shifted short s) = s := by
  have hmoved := tap_moved short s ((s + tap short s) % 2)
  rw [← shifted_eq] at hmoved
  have hlow : shifted short s % 0x4000 = s / 2 := by rw [shifted_eq]; omega
  have hhigh : shifted short s / 0x4000 = (s + tap short s) % 2 := by rw [shifted_eq]; omega
  rw [unshifted, hlow, hhigh]
  omega

theorem shifted_unshifted (h : r < 0x8000) : shifted short (unshifted short r) = r := by
  have hhalf : unshifted short r / 2 = r % 0x4000 := by unfold unshifted; omega
  have hparity : unshifted short r % 2 = (r / 0x4000 + tap short (2 * r)) % 2 := by
    unfold unshifted
    omega
  have hmoved := tap_moved short (unshifted short r) (r / 0x4000)
  rw [hhalf, Nat.mod_add_div' r 0x4000] at hmoved
  rw [shifted_eq, hhalf]
  omega

theorem shifted_zero : shifted short 0 = 0 := by cases short <;> rfl

theorem unshifted_zero : unshifted short 0 = 0 := by cases short <;> rfl

theorem mem_states_iff : s ∈ states ↔ s ≠ 0 ∧ s < 0x8000 := by
  rw [states, Set.mem_Icc]
  omega

/-- Only zero is shifted to zero. -/
theorem mapsTo_shifted : Set.MapsTo (shifted short) states states := by
  intro s hs
  obtain ⟨hne, hlt⟩ := mem_states_iff.1 hs
  refine mem_states_iff.2 ⟨fun hzero => hne ?_, shifted_lt short hlt⟩
  rw [← unshifted_shifted short hlt, hzero, unshifted_zero]

/-- Only zero comes from zero. -/
theorem mapsTo_unshifted : Set.MapsTo (unshifted short) states states := by
  intro r hr
  obtain ⟨hne, hlt⟩ := mem_states_iff.1 hr
  refine mem_states_iff.2 ⟨fun hzero => hne ?_, unshifted_lt short r⟩
  rw [← shifted_unshifted short hlt, hzero, shifted_zero]

/-- **A shift is a bijection** of the states other than zero, for either feedback. -/
theorem bijOn_shifted : Set.BijOn (shifted short) states states :=
  Set.InvOn.bijOn
    ⟨fun _ hs => unshifted_shifted short (mem_states_iff.1 hs).2,
      fun _ hr => shifted_unshifted short (mem_states_iff.1 hr).2⟩
    (mapsTo_shifted short) (mapsTo_unshifted short)

end

/-! ### Runs -/

variable {n n' : Noise}

/-- What decides when the register is shifted, and with which feedback. -/
def pace (n : Noise) : Nat × Nat × Bool := (n.timer, n.period, n.short)

/-- What an event does to the register. -/
def shiftOn (n : Noise) (e : Event) : Nat → Nat :=
  if e.isTick = true ∧ n.timer = 0 then shifted n.short else id

/-- What some events do to the register. -/
def shiftRun (n : Noise) : List Event → Nat → Nat
  | [] => id
  | e :: es => shiftRun (n.on e) es ∘ n.shiftOn e

/-- A write leaves the register alone. -/
theorem shift_write (n : Noise) (register : Nat) (v : UInt8) :
    (n.write register v).shift = n.shift := by
  unfold Noise.write
  split <;> rfl

theorem shift_on (n : Noise) (e : Event) : (n.on e).shift = n.shiftOn e n.shift := by
  cases e with
  | tick =>
    change n.tick.shift = n.shiftOn .tick n.shift
    unfold tick shiftOn
    by_cases htimer : n.timer = 0
    · rw [if_neg (Nat.not_lt.2 htimer.le), if_pos ⟨rfl, htimer⟩]
    · rw [if_pos (Nat.pos_of_ne_zero htimer), if_neg fun hand => htimer hand.2]
      rfl
  | write register v => exact n.shift_write register v
  | _ => rfl

/-- **The pace does not depend on the register,** nor on the envelope or the length counter. -/
theorem pace_on (h : n.pace = n'.pace) (e : Event) : (n.on e).pace = (n'.on e).pace := by
  obtain ⟨htimer, hrest⟩ := Prod.mk.inj h
  obtain ⟨hperiod, hshort⟩ := Prod.mk.inj hrest
  cases e with
  | tick =>
    change n.tick.pace = n'.tick.pace
    unfold tick pace
    rw [htimer]
    split_ifs <;> simp only [hperiod, hshort]
  | write register v =>
    change (n.write register v).pace = (n'.write register v).pace
    unfold Noise.write pace
    split <;> simp only [htimer, hperiod, hshort]
  | _ => exact h

theorem shiftOn_congr (h : n.pace = n'.pace) (e : Event) : n.shiftOn e = n'.shiftOn e := by
  obtain ⟨htimer, hrest⟩ := Prod.mk.inj h
  rw [shiftOn, shiftOn, htimer, (Prod.mk.inj hrest).2]

theorem shift_run (n : Noise) (es : List Event) : (n.run es).shift = n.shiftRun es n.shift := by
  induction es generalizing n with
  | nil => rfl
  | cons e es ih =>
    refine (ih (n.on e)).trans ?_
    rw [shift_on]
    rfl

theorem shiftRun_congr (h : n.pace = n'.pace) (es : List Event) :
    n.shiftRun es = n'.shiftRun es := by
  induction es generalizing n n' with
  | nil => rfl
  | cons e es ih => rw [shiftRun, shiftRun, ih (pace_on h e), shiftOn_congr h]

theorem bijOn_shiftOn (n : Noise) (e : Event) : Set.BijOn (n.shiftOn e) states states := by
  unfold shiftOn
  split
  · exact bijOn_shifted n.short
  · exact Set.bijOn_id states

/-- **A run is a bijection** of the states of the register other than zero. -/
theorem bijOn_shiftRun (n : Noise) (es : List Event) :
    Set.BijOn (n.shiftRun es) states states := by
  induction es generalizing n with
  | nil => exact Set.bijOn_id states
  | cons e es ih => exact (ih (n.on e)).comp (n.bijOn_shiftOn e)

theorem shift_mem_states (h : n.shift ∈ states) (es : List Event) :
    (n.run es).shift ∈ states := by
  rw [shift_run]
  exact (n.bijOn_shiftRun es).mapsTo h

/-- **The register lives.**  A shift is a bijection of the states other than zero, whichever bit the
feedback comes from.  So whatever happens to the channel from power-on on, with the mode switched at
any time, its register is never zero and has 15 bits; and if two channels differ in the register,
but not in timer, period and mode, then they differ in it after the same events. -/
theorem register_lives :
    (∀ short, Set.BijOn (shifted short) states states) ∧
    (∀ es : List Event,
      1 ≤ (({} : Noise).run es).shift ∧ (({} : Noise).run es).shift ≤ 0x7FFF) ∧
    ∀ (n n' : Noise) (es : List Event),
      n.timer = n'.timer → n.period = n'.period → n.short = n'.short →
      n.shift ∈ states → n'.shift ∈ states → n.shift ≠ n'.shift →
      (n.run es).shift ≠ (n'.run es).shift := by
  refine ⟨bijOn_shifted, fun es => ?_, fun n n' es htimer hperiod hshort hn hn' hne hmerged => ?_⟩
  · exact shift_mem_states (n := {}) (mem_states_iff.2 (by decide)) es
  · have hpace : n.pace = n'.pace := by rw [pace, pace, htimer, hperiod, hshort]
    rw [shift_run, shift_run, shiftRun_congr hpace] at hmerged
    exact hne ((n'.bijOn_shiftRun es).injOn hn hn' hmerged)

/-- Two registers with the mode switched between their shifts. -/
theorem register_lives_switched :
    let es : List Event := [.tick, .write 2 0x80, .tick, .tick, .tick, .tick]
    (({} : Noise).run es).shift ≠ (({ shift := 0x41 } : Noise).run es).shift :=
  register_lives.2.2 {} { shift := 0x41 } _ rfl rfl rfl (mem_states_iff.2 (by decide))
    (mem_states_iff.2 (by decide)) (by decide)

end Noise

/-- The register of the noise channel lives in the sound unit, whatever is done to it. -/
theorem noise_shift_mem_states (a : Apu) (h : a.noise.shift ∈ Noise.states) (ops : List Op) :
    (a.run ops).noise.shift ∈ Noise.states := by
  rw [noise_run]
  exact Noise.shift_mem_states h _

end Nes.Apu
