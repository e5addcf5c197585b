import Nes.Apu.Basic

/-!
# How often the sample channel wants a byte

A cycle of the processor lets the sample channel tick and feeds it if it then wants a byte
(`Dmc.cycle`).  It wants one when its buffer has been emptied, and that happens at most once in
eight clocks of its timer.

Whatever the timer does, this bounds the bytes against the cycles: `Dmc.load` counts the cycles of
waiting that the bytes wanted soon may cost, twice over, and a cycle raises it by one at most beyond
what it pays for (`Dmc.load_cycle`).  With a timer that was set by the register, which is no faster
than 54 ticks for a bit (`Dmc.Slow`), buffers are emptied 432 ticks apart, and `Dmc.Pace j f d` ties
the bytes `f` fetched to the ticks `j` passed: no more than three in 864 (`Dmc.Pace.fetched_le`).
-/

namespace Nes

namespace Apu.Dmc

/-- The reader wants a byte. -/
def wants (d : Dmc) : Bool := d.buffer.isNone && d.active

/-- A cycle of the processor, which has the byte `v` at hand. -/
def cycle (d : Dmc) (v : UInt8) : Dmc := if d.tick.wants then d.tick.feed v else d.tick

theorem fetchAddress_isSome (d : Dmc) : d.fetchAddress.isSome = d.wants := by
  unfold fetchAddress wants
  cases d.buffer.isNone && d.active <;> rfl

theorem fetchAddress_eq_none {d : Dmc} (h : d.wants = false) : d.fetchAddress = none := by
  rw [← Option.not_isSome_iff_eq_none, fetchAddress_isSome, h]
  exact Bool.false_ne_true

theorem buffer_feed (d : Dmc) (v : UInt8) : (d.feed v).buffer = some v := by
  simp only [feed]
  split
  · split <;> rfl
  · rfl

theorem bits_feed (d : Dmc) (v : UInt8) : (d.feed v).bits = d.bits := by
  simp only [feed]
  split
  · split <;> rfl
  · rfl

theorem timer_feed (d : Dmc) (v : UInt8) : (d.feed v).timer = d.timer := by
  simp only [feed]
  split
  · split <;> rfl
  · rfl

theorem period_feed (d : Dmc) (v : UInt8) : (d.feed v).period = d.period := by
  simp only [feed]
  split
  · split <;> rfl
  · rfl

/-- What a tick does to the timer, the bits and the buffer: the timer runs, or a bit ends, or the
last bit ends and the buffer is emptied. -/
theorem tick_cases (d : Dmc) :
    d.tick.period = d.period ∧
      (0 < d.timer ∧ d.tick.timer = d.timer - 1 ∧ d.tick.bits = d.bits ∧ d.tick.wants = d.wants ∧
          d.tick.buffer = d.buffer ∨
        d.timer = 0 ∧ 1 < d.bits ∧ d.tick.timer = d.period - 1 ∧ d.tick.bits = d.bits - 1 ∧
          d.tick.wants = d.wants ∧ d.tick.buffer = d.buffer ∨
        d.timer = 0 ∧ d.bits ≤ 1 ∧ d.tick.timer = d.period - 1 ∧ d.tick.bits = 8 ∧
          d.tick.buffer = none) := by
  by_cases ht : 0 < d.timer
  · simp only [tick, ht, ↓reduceIte]
    exact ⟨trivial, Or.inl ⟨trivial, trivial, trivial, rfl, trivial⟩⟩
  have ht0 : d.timer = 0 := by omega
  by_cases hb : d.bits - 1 = 0
  · simp only [tick, ht, ↓reduceIte, clockBit, hb]
    cases d.buffer <;> simp <;> omega
  · simp only [tick, ht, ↓reduceIte, clockBit, hb]
    refine ⟨trivial, Or.inr (Or.inl ⟨ht0, by omega, trivial, trivial, rfl, trivial⟩)⟩

theorem timer_cycle (d : Dmc) (v : UInt8) : (d.cycle v).timer = d.tick.timer := by
  unfold cycle
  split
  · exact timer_feed _ v
  · rfl

theorem bits_cycle (d : Dmc) (v : UInt8) : (d.cycle v).bits = d.tick.bits := by
  unfold cycle
  split
  · exact bits_feed _ v
  · rfl

theorem period_cycle (d : Dmc) (v : UInt8) : (d.cycle v).period = d.period := by
  rw [← (tick_cases d).1]
  unfold cycle
  split
  · exact period_feed _ v
  · rfl

/-- The bytes fetched in a cycle. -/
def fetched (d : Dmc) : Nat := if d.tick.wants then 1 else 0

/-- A byte that is fetched fills the buffer. -/
theorem buffer_cycle (d : Dmc) (v : UInt8) :
    d.fetched + (d.cycle v).buffer.isNone.toNat = d.tick.buffer.isNone.toNat := by
  unfold cycle fetched
  cases h : d.tick.wants
  · simp
  · have hnone : d.tick.buffer.isNone = true := (Bool.and_eq_true_iff.1 h).1
    simp [buffer_feed, hnone]

/-- After a cycle nothing is wanted. -/
theorem wants_cycle (d : Dmc) (v : UInt8) : (d.cycle v).wants = false := by
  unfold cycle
  cases h : d.tick.wants
  · exact h
  · simp [wants, buffer_feed]

/-! ### With any timer -/

/-- Twice the cycles that the byte wanted now costs, and the clocks since the last bit began. -/
def load (d : Dmc) : Nat := 8 * d.wants.toNat + (8 - d.bits)

theorem load_le (d : Dmc) : d.load ≤ 16 := by
  have := d.wants.toNat_lt
  simp only [load]
  omega

/-- A cycle adds one to the load, and takes off what is paid for a byte. -/
theorem load_cycle (d : Dmc) (v : UInt8) : (d.cycle v).load + 8 * d.fetched ≤ d.load + 1 := by
  have hwants : d.fetched = d.tick.wants.toNat := by
    unfold fetched
    cases d.tick.wants <;> rfl
  have hlt := d.tick.wants.toNat_lt
  simp only [load, wants_cycle, bits_cycle, hwants]
  rcases (tick_cases d).2 with ⟨_, _, hb, hw, _⟩ | ⟨_, _, _, hb, hw, _⟩ | ⟨_, _, _, hb, _⟩
  · rw [hb, hw]
    simp only [Bool.toNat_false]
    omega
  · rw [hb, hw]
    simp only [Bool.toNat_false]
    omega
  · rw [hb]
    simp only [Bool.toNat_false]
    omega

/-! ### With a timer that the register has set -/

/-- The timer is no faster than the fastest that the register selects. -/
def Slow (d : Dmc) : Prop := 54 ≤ d.period

theorem slow_periods (i : Fin 16) : 54 ≤ periods.get i := by
  revert i
  decide

theorem Slow.write {d : Dmc} (h : d.Slow) (register : Nat) (v : UInt8) :
    (d.write register v).Slow := by
  unfold Dmc.write
  split
  · exact slow_periods _
  all_goals exact h

/-- The fewest ticks after which the buffer is emptied. -/
def untilTake (d : Dmc) : Nat := d.timer + (d.bits - 1) * 54

/-- The ticks `j` and the bytes `f` fetched in them: for each byte, the buffer was empty at the
start or has been emptied, and it is emptied every 432 ticks at most. -/
def Pace (j f : Nat) (d : Dmc) : Prop :=
  d.Slow ∧ ∃ takes, f + d.buffer.isNone.toNat ≤ takes + 1 ∧ 432 * takes ≤ d.untilTake + j ∧
    432 * takes ≤ 431 + j

theorem Pace.start {d : Dmc} (h : d.Slow) : Pace 0 0 d := by
  have := d.buffer.isNone.toNat_lt
  exact ⟨h, 0, by omega, by omega, by omega⟩

theorem Pace.cycle {j f : Nat} {d : Dmc} (h : Pace j f d) (v : UInt8) :
    Pace (j + 1) (f + d.fetched) (d.cycle v) := by
  obtain ⟨hslow, takes, hf, huntil, hj⟩ := h
  have hslow' : 54 ≤ d.period := hslow
  have hfetched := buffer_cycle d v
  refine ⟨by rw [Slow, period_cycle]; exact hslow, ?_⟩
  simp only [untilTake, timer_cycle, bits_cycle] at huntil ⊢
  rcases (tick_cases d).2 with ⟨_, ht, hb, _, hbuf⟩ | ⟨_, _, ht, hb, _, hbuf⟩ | ⟨_, _, ht, hb, hbuf⟩
  · rw [hbuf] at hfetched
    rw [ht, hb]
    exact ⟨takes, by omega, by omega, by omega⟩
  · rw [hbuf] at hfetched
    rw [ht, hb]
    exact ⟨takes, by omega, by omega, by omega⟩
  · -- The buffer is emptied, so 432 ticks have passed for each time before.
    rw [hbuf] at hfetched
    rw [ht, hb]
    have := d.buffer.isNone.toNat_lt
    simp only [Option.isNone_none, Bool.toNat_true] at hfetched
    exact ⟨takes + 1, by omega, by omega, by omega⟩

/-- Three bytes are fetched in 864 ticks at most. -/
theorem Pace.fetched_le {j f : Nat} {d : Dmc} (h : Pace j f d) (hj : j ≤ 864) : f ≤ 3 := by
  obtain ⟨_, takes, hf, _, htakes⟩ := h
  omega

end Apu.Dmc

/-- The rest of the sound unit does not matter to the sample channel. -/
theorem Apu.dmc_tick (a : Apu) : a.tick.dmc = a.dmc.tick := by
  have hframe : a.tickFrame.dmc = a.dmc := by
    simp only [Apu.tickFrame]
    split <;> split <;> rfl
  have hsample : ∀ b : Apu, b.tickSample.dmc = b.dmc := by
    intro b
    simp only [Apu.tickSample]
    split <;> rfl
  rw [Apu.tick, hsample, ← hframe]
  simp only [Apu.tickChannels]
  split <;> rfl

end Nes
