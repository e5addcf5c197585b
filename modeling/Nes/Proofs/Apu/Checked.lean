import Nes.Proofs.Checked
import Nes.Proofs.Apu.Dmc

/-!
# The sound unit in words

Everything the sound unit computes, with arithmetic that can stop and with tables that are read
inside their bounds: the timers and counters that run down, the targets of the sweep units, the
steps of the sequences, the addresses of samples, and the sums by which the mixer looks its output
up.  Where the registers keep to their ranges none of this stops, and the answer is the library's.
-/

namespace Nes.Apu

open Checked

/-! ### Length counters -/

namespace Length

/-- `Length.load` with a table of 32 lengths. -/
def load? (l : Length) (v : UInt8) : Option Length :=
  if l.enabled then do
    let value ← table[v.toNat >>> 3]?
    some { l with value }
  else some l

/-- `Length.clock`, which counts down from a number above zero. -/
def clock? (l : Length) : Option Length :=
  if !l.halt && 0 < l.value then do
    let value ← sub l.value 1
    some { l with value }
  else some l

variable (l : Length)

theorem load?_eq (v : UInt8) : l.load? v = some (l.load v) := by
  have hv := v.toNat_lt
  have hindex : v.toNat >>> 3 = (Bits.high5 v).val := Nat.shiftRight_eq_div_pow v.toNat 3
  unfold load? load
  split_ifs
  · rw [hindex]
    exact bind_eq (Vector.getElem?_eq_getElem (Bits.high5 v).isLt) rfl
  · rfl

theorem clock?_eq : l.clock? = some l.clock := by
  obtain ⟨enabled, halt, value⟩ := l
  cases halt with
  | true => rfl
  | false =>
    cases value with
    | zero => rfl
    | succ value => exact bind_eq (sub_eq (Nat.succ_pos value)) rfl

end Length

/-! ### Envelopes -/

namespace Envelope

/-- `Envelope.fallen`, which counts down from a volume above zero. -/
def fallen? (e : Envelope) : Option Nat :=
  if 0 < e.decay then sub e.decay 1 else some (if e.looping then 15 else e.decay)

/-- `Envelope.clock`, which counts down from a number above zero. -/
def clock? (e : Envelope) : Option Envelope :=
  if e.start then some { e with start := false, decay := 15, divider := e.volume }
  else if 0 < e.divider then do
    let divider ← sub e.divider 1
    some { e with divider }
  else do
    let decay ← e.fallen?
    some { e with divider := e.volume, decay }

/-- The volumes have four bits. -/
structure Fits (e : Envelope) : Prop where
  /-- The falling volume. -/
  decay_le : e.decay ≤ 15
  /-- The constant one. -/
  volume_le : e.volume ≤ 15

variable {e : Envelope}

theorem fallen?_eq (e : Envelope) : e.fallen? = some e.fallen := by
  unfold fallen? fallen
  split_ifs with hdecay hlooping
  · exact sub_eq hdecay
  · rfl
  · rw [Nat.eq_zero_of_not_pos hdecay]

theorem clock?_eq (e : Envelope) : e.clock? = some e.clock := by
  unfold clock? clock
  split_ifs with hstart hdivider
  · rfl
  · exact bind_eq (sub_eq hdivider) rfl
  · exact bind_eq e.fallen?_eq rfl

theorem Fits.output_le (h : e.Fits) : e.output ≤ 15 := by
  unfold output
  split_ifs
  · exact h.volume_le
  · exact h.decay_le

theorem Fits.write (h : e.Fits) (v : UInt8) : (e.write v).Fits :=
  ⟨h.decay_le, Nat.le_of_lt_succ (Nat.mod_lt _ (by decide))⟩

theorem Fits.restart (h : e.Fits) : e.restart.Fits := ⟨h.decay_le, h.volume_le⟩

theorem Fits.clock (h : e.Fits) : e.clock.Fits := by
  have hdecay := h.decay_le
  unfold Envelope.clock
  split_ifs
  · exact ⟨Nat.le_refl 15, h.volume_le⟩
  · exact ⟨hdecay, h.volume_le⟩
  · refine ⟨?_, h.volume_le⟩
    change e.fallen ≤ 15
    unfold fallen
    split_ifs <;> omega

end Envelope

/-! ### Pulse channels -/

namespace Sweep

/-- `Sweep.target` in words of 16 bits; below zero the period stays there. -/
def target? (s : Sweep) (channel : PulseChannel) (period : Nat) : Option Nat := do
  let change ← shr 16 period s.shift
  match s.negate, channel with
  | false, _ => add 16 period change
  | true, .one => do
    let change ← add 16 change 1
    some (period - change)
  | true, .two => some (period - change)

/-- `Sweep.clockDivider`, which counts down from a number above zero. -/
def clockDivider? (s : Sweep) : Option Sweep :=
  if s.divider = 0 ∨ s.reload then some { s with divider := s.period, reload := false }
  else do
    let divider ← sub s.divider 1
    some { s with divider }

theorem target?_eq {s : Sweep} (hshift : s.shift < 8) (channel : PulseChannel) {period : Nat}
    (hperiod : period ≤ 0x7FF) : s.target? channel period = some (s.target channel period) := by
  have hchange : period >>> s.shift ≤ period := Nat.shiftRight_le ..
  refine bind_eq (shr_eq (by omega)) ?_
  unfold target
  cases s.negate with
  | false => exact add_eq (by omega)
  | true =>
    cases channel with
    | one => exact bind_eq (add_eq (by omega)) rfl
    | two => rfl

theorem clockDivider?_eq (s : Sweep) : s.clockDivider? = some s.clockDivider := by
  unfold clockDivider? clockDivider
  split_ifs with h
  · rfl
  · exact bind_eq (sub_eq (Nat.pos_of_ne_zero (not_or.1 h).1)) rfl

end Sweep

namespace Pulse

/-- `Pulse.write` with tables of four patterns and of 32 lengths. -/
def write? (p : Pulse) (register : Nat) (v : UInt8) : Option Pulse :=
  match register % 4 with
  | 0 => do
    let duty ← fin 4 (v.toNat >>> 6)
    some { p with
      duty
      envelope := p.envelope.write v
      length := { p.length with halt := v &&& 0x20 != 0 } }
  | 1 => some { p with sweep := p.sweep.write v }
  | 2 => some { p with period := withPeriodLow p.period v }
  | _ => do
    let length ← p.length.load? v
    some { p with
      period := withPeriodHigh p.period v
      length
      envelope := p.envelope.restart
      step := 0 }

/-- `Pulse.tick` with a timer that counts down from a number above zero, and eight steps. -/
def tick? (p : Pulse) : Option Pulse :=
  if p.timer = 0 then do
    let next ← add 8 p.step.val 1
    let step ← fin 8 (next &&& 7)
    some { p with timer := p.period, step }
  else do
    let timer ← sub p.timer 1
    some { p with timer }

/-- `Pulse.target` in words of 16 bits. -/
def target? (p : Pulse) : Option Nat := p.sweep.target? p.channel p.period

/-- `Pulse.muted`, which looks at the target of a period that is not too short. -/
def muted? (p : Pulse) : Option Bool :=
  if p.period < 8 then some true
  else do
    let target ← p.target?
    some (0x7FF < target)

/-- The period after a half frame. -/
def nextPeriod? (p : Pulse) : Option Nat :=
  if p.sweep.divider == 0 && p.sweep.enabled && 0 < p.sweep.shift then do
    let muted ← p.muted?
    if muted then some p.period else p.target?
  else some p.period

/-- `Pulse.clockSweep` in words of 16 bits. -/
def clockSweep? (p : Pulse) : Option Pulse := do
  let period ← p.nextPeriod?
  let sweep ← p.sweep.clockDivider?
  some { p with period, sweep }

/-- `Pulse.output` with four patterns of eight steps. -/
def output? (p : Pulse) : Option Nat := do
  let pattern ← patterns[p.duty.val]?
  let high ← pattern[p.step.val]?
  if !high || !p.length.active then some 0
  else do
    let muted ← p.muted?
    some (if muted then 0 else p.envelope.output)

/-- The period has eleven bits, whatever the sweep unit made of it. -/
structure Fits (p : Pulse) : Prop where
  /-- The period. -/
  period_le : p.period ≤ 0x7FF
  /-- The shift of the sweep unit has three bits. -/
  shift_lt : p.sweep.shift < 8
  /-- The volumes. -/
  envelope : p.envelope.Fits

variable {p : Pulse}

theorem fits_new (channel : PulseChannel) : Fits { channel } :=
  ⟨Nat.zero_le _, Nat.succ_pos 7, ⟨Nat.zero_le _, Nat.zero_le _⟩⟩

theorem write?_eq (p : Pulse) (register : Nat) (v : UInt8) :
    p.write? register v = some (p.write register v) := by
  have hduty : v.toNat >>> 6 = (Bits.high2 v).val := Nat.shiftRight_eq_div_pow v.toNat 6
  unfold write? write
  generalize register % 4 = register
  match register with
  | 0 =>
    simp only [hduty]
    exact bind_eq (fin_eq (Bits.high2 v).isLt) rfl
  | 1 | 2 => rfl
  | _ + 3 => exact bind_eq (p.length.load?_eq v) rfl

theorem tick?_eq (p : Pulse) : p.tick? = some p.tick := by
  unfold tick? tick
  split_ifs with htimer
  · have hstep := p.step.isLt
    have hmask : p.step.val + 1 &&& 7 = (p.step.val + 1) % 8 := Nat.and_two_pow_sub_one_eq_mod _ 3
    refine bind_eq (add_eq (by omega)) ?_
    rw [hmask]
    exact bind_eq (fin_eq (Nat.mod_lt _ (by decide))) rfl
  · exact bind_eq (sub_eq (Nat.pos_of_ne_zero htimer)) rfl

theorem Fits.target?_eq (h : p.Fits) : p.target? = some p.target :=
  Sweep.target?_eq h.shift_lt p.channel h.period_le

theorem Fits.muted?_eq (h : p.Fits) : p.muted? = some p.muted := by
  unfold muted? muted
  split_ifs with hshort
  · rw [decide_eq_true hshort, Bool.true_or]
  · rw [decide_eq_false hshort, Bool.false_or]
    exact bind_eq h.target?_eq rfl

theorem Fits.nextPeriod?_eq (h : p.Fits) :
    p.nextPeriod? = some (if p.sweeps then p.target else p.period) := by
  unfold nextPeriod? sweeps
  by_cases hdue : (p.sweep.divider == 0 && p.sweep.enabled && 0 < p.sweep.shift) = true
  · rw [if_pos hdue, hdue, Bool.true_and]
    refine bind_eq h.muted?_eq ?_
    cases p.muted with
    | true => rfl
    | false => exact h.target?_eq
  · rw [if_neg hdue]
    rw [Bool.not_eq_true] at hdue
    rw [hdue, Bool.false_and]
    rfl

theorem Fits.clockSweep?_eq (h : p.Fits) : p.clockSweep? = some p.clockSweep :=
  bind_eq h.nextPeriod?_eq (bind_eq p.sweep.clockDivider?_eq rfl)

theorem Fits.output?_eq (h : p.Fits) : p.output? = some p.output := by
  unfold output? output
  refine bind_eq (Vector.getElem?_eq_getElem p.duty.isLt) ?_
  refine bind_eq (Vector.getElem?_eq_getElem p.step.isLt) ?_
  change (if !(patterns.get p.duty).get p.step || !p.length.active then some 0 else _) = _
  cases (patterns.get p.duty).get p.step with
  | false => rfl
  | true =>
    cases p.length.active with
    | false => rfl
    | true =>
      refine bind_eq h.muted?_eq ?_
      cases p.muted <;> rfl

theorem Fits.output_le (h : p.Fits) : p.output ≤ 15 := by
  unfold output
  split_ifs
  · exact h.envelope.output_le
  · exact Nat.zero_le 15

theorem Fits.write (h : p.Fits) (register : Nat) (v : UInt8) : (p.write register v).Fits := by
  have hv := v.toNat_lt
  have hperiod := h.period_le
  unfold Pulse.write
  split
  · exact ⟨hperiod, h.shift_lt, h.envelope.write v⟩
  · exact ⟨hperiod, Nat.mod_lt _ (by decide), h.envelope⟩
  · refine ⟨?_, h.shift_lt, h.envelope⟩
    change withPeriodLow p.period v ≤ 0x7FF
    unfold withPeriodLow
    omega
  · refine ⟨?_, h.shift_lt, h.envelope.restart⟩
    change withPeriodHigh p.period v ≤ 0x7FF
    unfold withPeriodHigh
    omega

theorem Fits.tick (h : p.Fits) : p.tick.Fits := by
  unfold Pulse.tick
  split_ifs <;> exact ⟨h.period_le, h.shift_lt, h.envelope⟩

/-- A sweep keeps the period in its range because a target beyond it mutes the channel. -/
theorem Fits.clockSweep (h : p.Fits) : p.clockSweep.Fits := by
  refine ⟨?_, ?_, h.envelope⟩
  · -- The guard of the sweep is that the channel is not muted.
    change (if p.sweeps then p.target else p.period) ≤ 0x7FF
    split_ifs with hsweeps
    · have hmuted : p.muted = false := by
        unfold sweeps at hsweeps
        rw [Bool.and_eq_true, Bool.not_eq_true'] at hsweeps
        exact hsweeps.2
      unfold muted at hmuted
      rw [Bool.or_eq_false_iff, decide_eq_false_iff_not, decide_eq_false_iff_not] at hmuted
      omega
    · exact h.period_le
  · change p.sweep.clockDivider.shift < 8
    unfold Sweep.clockDivider
    split_ifs <;> exact h.shift_lt

theorem Fits.withLength (h : p.Fits) (length : Length) : ({ p with length } : Pulse).Fits :=
  ⟨h.period_le, h.shift_lt, h.envelope⟩

theorem Fits.clockEnvelope (h : p.Fits) :
    ({ p with envelope := p.envelope.clock } : Pulse).Fits :=
  ⟨h.period_le, h.shift_lt, h.envelope.clock⟩

end Pulse

/-! ### The triangle channel -/

namespace Triangle

/-- The levels of the 32 steps. -/
def levels : Vector Nat 32 := #v[
  15, 14, 13, 12, 11, 10, 9, 8, 7, 6, 5, 4, 3, 2, 1, 0,
  0, 1, 2, 3, 4, 5, 6, 7, 8, 9, 10, 11, 12, 13, 14, 15]

/-- `Triangle.write` with a table of 32 lengths. -/
def write? (t : Triangle) (register : Nat) (v : UInt8) : Option Triangle :=
  match register % 4 with
  | 0 =>
    let control := v &&& 0x80 != 0
    some
      { t with control, length := { t.length with halt := control }, linearLoad := v.toNat % 128 }
  | 1 => some t
  | 2 => some { t with period := Pulse.withPeriodLow t.period v }
  | _ => do
    let length ← t.length.load? v
    some { t with period := Pulse.withPeriodHigh t.period v, length, linearReload := true }

/-- The step after the timer has run down. -/
def nextStep? (t : Triangle) : Option (Fin 32) :=
  if t.running then do
    let next ← add 8 t.step.val 1
    fin 32 (next &&& 0x1F)
  else some t.step

/-- `Triangle.tick` with a timer that counts down from a number above zero, and 32 steps. -/
def tick? (t : Triangle) : Option Triangle :=
  if t.timer = 0 then do
    let step ← t.nextStep?
    some { t with timer := t.period, step }
  else do
    let timer ← sub t.timer 1
    some { t with timer }

/-- The linear counter after a quarter frame. -/
def nextLinear? (t : Triangle) : Option Nat :=
  if t.linearReload then some t.linearLoad
  else if 0 < t.linear then sub t.linear 1
  else some t.linear

/-- `Triangle.clockLinear`, which counts down from a number above zero. -/
def clockLinear? (t : Triangle) : Option Triangle := do
  let linear ← t.nextLinear?
  some { t with linear, linearReload := t.linearReload && t.control }

/-- `Triangle.output` with a table of 32 levels. -/
def output? (t : Triangle) : Option Nat :=
  if t.running && 2 ≤ t.period then levels[t.step.val]? else some 0

variable (t : Triangle)

theorem write?_eq (register : Nat) (v : UInt8) :
    t.write? register v = some (t.write register v) := by
  unfold write? write
  generalize register % 4 = register
  match register with
  | 0 | 1 | 2 => rfl
  | _ + 3 => exact bind_eq (t.length.load?_eq v) rfl

theorem nextStep?_eq : t.nextStep? = some (if t.running then t.step + 1 else t.step) := by
  have hstep := t.step.isLt
  have hmask : t.step.val + 1 &&& 0x1F = (t.step.val + 1) % 32 :=
    Nat.and_two_pow_sub_one_eq_mod _ 5
  unfold nextStep?
  split_ifs
  · refine bind_eq (add_eq (by omega)) ?_
    rw [hmask]
    exact fin_eq (Nat.mod_lt _ (by decide))
  · rfl

theorem tick?_eq : t.tick? = some t.tick := by
  unfold tick? tick
  by_cases htimer : t.timer = 0
  · rw [if_pos htimer, if_pos htimer]
    exact bind_eq t.nextStep?_eq rfl
  · rw [if_neg htimer, if_neg htimer]
    exact bind_eq (sub_eq (Nat.pos_of_ne_zero htimer)) rfl

theorem clockLinear?_eq : t.clockLinear? = some t.clockLinear := by
  refine bind_eq (a := if t.linearReload then t.linearLoad else t.linear - 1) ?_ rfl
  unfold nextLinear?
  split_ifs with hreload hlinear
  · rfl
  · exact sub_eq hlinear
  · rw [Nat.eq_zero_of_not_pos hlinear]

theorem levels_eq (step : Fin 32) : levels[step.val] = levelOf step := by
  revert step
  decide

theorem output?_eq : t.output? = some t.output := by
  unfold output? output
  split_ifs
  · rw [← levels_eq]
    exact Vector.getElem?_eq_getElem t.step.isLt
  · rfl

theorem output_le : t.output ≤ 15 := by
  have hstep := t.step.isLt
  unfold output levelOf
  split_ifs <;> omega

end Triangle

/-! ### The noise channel -/

namespace Noise

/-- `Noise.write` with tables of 16 periods and of 32 lengths. -/
def write? (n : Noise) (register : Nat) (v : UInt8) : Option Noise :=
  match register % 4 with
  | 0 =>
    some { n with
      envelope := n.envelope.write v
      length := { n.length with halt := v &&& 0x20 != 0 } }
  | 1 => some n
  | 2 => do
    let period ← periods[v.toNat &&& 0x0F]?
    some { n with short := v &&& 0x80 != 0, period }
  | _ => do
    let length ← n.length.load? v
    some { n with length, envelope := n.envelope.restart }

/-- `Noise.tick`, where the period is above zero. -/
def tick? (n : Noise) : Option Noise :=
  if 0 < n.timer then do
    let timer ← sub n.timer 1
    some { n with timer }
  else do
    let timer ← sub n.period 1
    some { n with timer, shift := shifted n.short n.shift }

/-- The channel has a period. -/
structure Fits (n : Noise) : Prop where
  /-- The period. -/
  period_pos : 0 < n.period
  /-- The volumes. -/
  envelope : n.envelope.Fits

variable {n : Noise}

theorem fits_new : Fits {} := ⟨by decide, ⟨by decide, by decide⟩⟩

theorem write?_eq (n : Noise) (register : Nat) (v : UInt8) :
    n.write? register v = some (n.write register v) := by
  have hperiod : v.toNat &&& 0x0F = (Bits.low4 v).val := Nat.and_two_pow_sub_one_eq_mod v.toNat 4
  unfold write? write
  generalize register % 4 = register
  match register with
  | 0 | 1 => rfl
  | 2 =>
    simp only [hperiod]
    exact bind_eq (Vector.getElem?_eq_getElem (Bits.low4 v).isLt) rfl
  | _ + 3 => exact bind_eq (n.length.load?_eq v) rfl

theorem Fits.tick?_eq (h : n.Fits) : n.tick? = some n.tick := by
  unfold tick? Noise.tick
  split_ifs with htimer
  · exact bind_eq (sub_eq htimer) rfl
  · exact bind_eq (sub_eq h.period_pos) rfl

theorem Fits.output_le (h : n.Fits) : n.output ≤ 15 := by
  unfold output
  split_ifs
  · exact h.envelope.output_le
  · exact Nat.zero_le 15

theorem Fits.write (h : n.Fits) (register : Nat) (v : UInt8) : (n.write register v).Fits := by
  unfold Noise.write
  split
  · exact ⟨h.period_pos, h.envelope.write v⟩
  · exact h
  · exact ⟨periods_pos (Bits.low4 v), h.envelope⟩
  · exact ⟨h.period_pos, h.envelope.restart⟩

theorem Fits.tick (h : n.Fits) : n.tick.Fits := by
  unfold Noise.tick
  split_ifs <;> exact ⟨h.period_pos, h.envelope⟩

theorem Fits.withLength (h : n.Fits) (length : Length) : ({ n with length } : Noise).Fits :=
  ⟨h.period_pos, h.envelope⟩

theorem Fits.clockEnvelope (h : n.Fits) :
    ({ n with envelope := n.envelope.clock } : Noise).Fits := ⟨h.period_pos, h.envelope.clock⟩

end Noise

/-! ### The sample channel -/

namespace Dmc

/-- `Dmc.write` with a table of 16 periods. -/
def write? (d : Dmc) (register : Nat) (v : UInt8) : Option Dmc :=
  match register % 4 with
  | 0 => do
    let period ← periods[v.toNat &&& 0x0F]?
    let irqEnabled := v &&& 0x80 != 0
    some { d with
      irqEnabled
      irq := d.irq && irqEnabled
      looping := v &&& 0x40 != 0
      period }
  | _ => some (d.write register v)

/-- `Dmc.nextAddr` in words of 16 bits. -/
def nextAddr? (addr : UInt16) : Option UInt16 :=
  if addr == 0xFFFF then some 0x8000
  else do
    let next ← add 16 addr.toNat 1
    some (.ofNat next)

/-- `Dmc.feed` in words of 16 bits. -/
def feed? (d : Dmc) (v : UInt8) : Option Dmc := do
  let currentAddr ← nextAddr? d.currentAddr
  let d := { d with buffer := some v, currentAddr, remaining := d.remaining - 1 }
  if d.remaining = 0 then
    some (if d.looping then d.restart else { d with irq := d.irq || d.irqEnabled })
  else some d

/-- `Dmc.nextLevel` in words of 8 bits. -/
def nextLevel? (d : Dmc) : Option Nat :=
  if d.silent then some d.level
  else if d.shift % 2 = 1 then (if d.level ≤ 125 then add 8 d.level 2 else some d.level)
  else if 2 ≤ d.level then sub d.level 2
  else some d.level

/-- `Dmc.clockBit` in words of 8 bits. -/
def clockBit? (d : Dmc) : Option Dmc := do
  let level ← d.nextLevel?
  let d := { d with level, shift := d.shift / 2, bits := d.bits - 1 }
  some <|
    if d.bits = 0 then
      match d.buffer with
      | some v => { d with bits := 8, shift := v.toNat, silent := false, buffer := none }
      | none => { d with bits := 8, silent := true }
    else d

/-- `Dmc.tick`, where the period is above zero. -/
def tick? (d : Dmc) : Option Dmc :=
  if 0 < d.timer then do
    let timer ← sub d.timer 1
    some { d with timer }
  else do
    let timer ← sub d.period 1
    let d ← d.clockBit?
    some { d with timer }

/-- The channel has a period, its level has seven bits, and samples lie from `$8000` on. -/
structure Fits (d : Dmc) : Prop where
  /-- The period. -/
  slow : d.Slow
  /-- The level. -/
  level_le : d.level ≤ 127
  /-- Where samples start. -/
  sampleAddr : 0x8000 ≤ d.sampleAddr.toNat
  /-- Where the next byte is. -/
  currentAddr : 0x8000 ≤ d.currentAddr.toNat

variable {d : Dmc}

theorem fits_new : Fits {} where
  slow := by unfold Slow; decide
  level_le := by decide
  sampleAddr := by decide
  currentAddr := by decide

theorem write?_eq (d : Dmc) (register : Nat) (v : UInt8) :
    d.write? register v = some (d.write register v) := by
  have hperiod : v.toNat &&& 0x0F = (Bits.low4 v).val := Nat.and_two_pow_sub_one_eq_mod v.toNat 4
  unfold write?
  split
  · next hregister =>
    unfold write
    rw [hregister, hperiod]
    exact bind_eq (Vector.getElem?_eq_getElem (Bits.low4 v).isLt) rfl
  · rfl

theorem nextAddr?_eq (addr : UInt16) : nextAddr? addr = some (nextAddr addr) := by
  unfold nextAddr? nextAddr
  split_ifs with hlast
  · rfl
  · have haddr := addr.toNat_lt
    have hne : addr.toNat ≠ 0xFFFF := fun h => hlast (beq_iff_eq.2 (UInt16.toNat_inj.1 h))
    refine bind_eq (add_eq (by omega)) ?_
    rw [UInt16.ofNat_add, UInt16.ofNat_toNat]
    rfl

theorem feed?_eq (d : Dmc) (v : UInt8) : d.feed? v = some (d.feed v) := by
  refine bind_eq (nextAddr?_eq d.currentAddr) ?_
  unfold feed
  dsimp only
  split_ifs <;> rfl

theorem Fits.nextLevel?_eq (h : d.Fits) : d.nextLevel? = some d.nextLevel := by
  have hlevel := h.level_le
  unfold nextLevel? nextLevel
  split_ifs with hsilent hup hroom hdown
  · rfl
  · exact add_eq (by omega)
  · rfl
  · exact sub_eq hdown
  · rfl

theorem Fits.clockBit?_eq (h : d.Fits) : d.clockBit? = some d.clockBit :=
  bind_eq h.nextLevel?_eq rfl

theorem Fits.tick?_eq (h : d.Fits) : d.tick? = some d.tick := by
  have hperiod := h.slow
  unfold Slow at hperiod
  unfold tick? Dmc.tick
  split_ifs with htimer
  · exact bind_eq (sub_eq htimer) rfl
  · exact bind_eq (sub_eq (by omega)) (bind_eq h.clockBit?_eq rfl)

theorem nextLevel_le (h : d.level ≤ 127) : d.nextLevel ≤ 127 := by
  unfold nextLevel
  split_ifs <;> omega

theorem toNat_nextAddr {addr : UInt16} (h : 0x8000 ≤ addr.toNat) :
    0x8000 ≤ (nextAddr addr).toNat := by
  unfold nextAddr
  split_ifs with hlast
  · decide
  · have haddr := addr.toNat_lt
    have hne : addr.toNat ≠ 0xFFFF := fun h => hlast (beq_iff_eq.2 (UInt16.toNat_inj.1 h))
    have hnext : (addr + 1).toNat = (addr.toNat + 1) % 2 ^ 16 := UInt16.toNat_add addr 1
    omega

theorem toNat_sampleAddr (v : UInt8) : 0x8000 ≤ (0xC000 + v.toUInt16 * 64).toNat := by
  have hv := v.toNat_lt
  simp only [UInt16.toNat_add, UInt16.toNat_mul, UInt8.toNat_toUInt16, UInt16.reduceToNat]
  omega

theorem Fits.write (h : d.Fits) (register : Nat) (v : UInt8) : (d.write register v).Fits := by
  refine ⟨h.slow.write register v, ?_, ?_, ?_⟩
  · unfold Dmc.write
    split
    · exact h.level_le
    · exact Nat.le_of_lt_succ (Nat.mod_lt _ (by decide))
    · exact h.level_le
    · exact h.level_le
  · unfold Dmc.write
    split
    · exact h.sampleAddr
    · exact h.sampleAddr
    · exact toNat_sampleAddr v
    · exact h.sampleAddr
  · unfold Dmc.write
    split <;> exact h.currentAddr

theorem Fits.restart (h : d.Fits) : d.restart.Fits :=
  ⟨h.slow, h.level_le, h.sampleAddr, h.sampleAddr⟩

theorem Fits.setEnabled (h : d.Fits) (enabled : Bool) : (d.setEnabled enabled).Fits := by
  unfold Dmc.setEnabled
  split_ifs
  · exact ⟨h.slow, h.level_le, h.sampleAddr, h.currentAddr⟩
  · exact h.restart
  · exact h

theorem Fits.feed (h : d.Fits) (v : UInt8) : (d.feed v).Fits := by
  let q : Dmc :=
    { d with
      buffer := some v
      currentAddr := nextAddr d.currentAddr
      remaining := d.remaining - 1 }
  have hq : q.Fits := ⟨h.slow, h.level_le, h.sampleAddr, toNat_nextAddr h.currentAddr⟩
  unfold Dmc.feed
  dsimp only
  split_ifs
  · exact hq.restart
  · exact ⟨hq.slow, hq.level_le, hq.sampleAddr, hq.currentAddr⟩
  · exact hq

theorem Fits.clockBit (h : d.Fits) : d.clockBit.Fits := by
  have hlevel := nextLevel_le h.level_le
  unfold Dmc.clockBit
  dsimp only
  split_ifs
  · split <;> exact ⟨h.slow, hlevel, h.sampleAddr, h.currentAddr⟩
  · exact ⟨h.slow, hlevel, h.sampleAddr, h.currentAddr⟩

theorem Fits.tick (h : d.Fits) : d.tick.Fits := by
  unfold Dmc.tick
  split_ifs
  · exact ⟨h.slow, h.level_le, h.sampleAddr, h.currentAddr⟩
  · have hbit := h.clockBit
    exact ⟨hbit.slow, hbit.level_le, hbit.sampleAddr, hbit.currentAddr⟩

/-- The reader asks for addresses of the program only. -/
theorem Fits.fetchAddress (h : d.Fits) {addr : UInt16} (haddr : d.fetchAddress = some addr) :
    0x8000 ≤ addr.toNat := by
  unfold Dmc.fetchAddress at haddr
  split_ifs at haddr
  cases haddr
  exact h.currentAddr

end Dmc

/-! ### The mixer -/

/-- `Mixer.mix` with the sums in words and the tables as long as they are. -/
def Mixer.mix? (pulse1 pulse2 triangle noise dmc : Nat) : Option Float32 := do
  let pulse ← add 8 pulse1 pulse2
  let triangle ← mul 64 3 triangle
  let noise ← mul 64 2 noise
  let tnd ← add 64 triangle noise
  let tnd ← add 64 tnd dmc
  let low ← pulseTable[pulse]?
  let high ← tndTable[tnd]?
  some (low + high)

namespace Mixer

theorem size_pulseTable : pulseTable.size = 31 := Array.size_ofFn

theorem size_tndTable : tndTable.size = 203 := Array.size_ofFn

variable {pulse1 pulse2 triangle noise dmc : Nat}

/-- The largest index is the last one of the table, which has no level to spare. -/
theorem tndIndex_lt (ht : triangle ≤ 15) (hn : noise ≤ 15) (hd : dmc ≤ 127) :
    tndIndex triangle noise dmc < 203 := by
  unfold tndIndex
  omega

theorem mix?_eq (h1 : pulse1 ≤ 15) (h2 : pulse2 ≤ 15) (ht : triangle ≤ 15) (hn : noise ≤ 15)
    (hd : dmc ≤ 127) :
    mix? pulse1 pulse2 triangle noise dmc = some (mix pulse1 pulse2 triangle noise dmc) := by
  have hpulse : pulse1 + pulse2 < pulseTable.size := by
    rw [size_pulseTable]
    omega
  have htnd : tndIndex triangle noise dmc < tndTable.size := by
    rw [size_tndTable]
    exact tndIndex_lt ht hn hd
  refine bind_eq (add_eq (by omega)) <| bind_eq (mul_eq (by omega)) ?_
  refine bind_eq (mul_eq (by omega)) <| bind_eq (add_eq (by omega)) ?_
  refine bind_eq (add_eq (by omega)) ?_
  refine bind_eq (Array.getElem?_eq_getElem hpulse) <| bind_eq (Array.getElem?_eq_getElem htnd) ?_
  have hlow : pulseTable.getD (pulse1 + pulse2) 0 = pulseTable[pulse1 + pulse2] := dif_pos hpulse
  have hhigh : tndTable.getD (tndIndex triangle noise dmc) 0 =
      tndTable[tndIndex triangle noise dmc] := dif_pos htnd
  rw [mix, hlow, hhigh]

end Mixer

end Nes.Apu
