import Nes.Proofs.Apu.History

/-!
# Enabled and disabled channels

Four of the channels have a length counter (`Voice`).  Of all that can happen to the sound unit, a
length counter notices writes to two registers of its channel, writes to the register that enables
channels, resets, and the ends of half frames (`Voice.length_act`).  The first register of a channel
does not start the counter, and the last one only if the channel is enabled.

Therefore a channel that the last write to that register has left disabled is silent, whatever else
happens (`Heeds.run`).  The same goes for the sample channel, which is fed only when it asks for a
byte: while it is disabled it does not ask, and nothing else starts it (`disabled_silent`).
-/

namespace Nes.Apu

/-- The channels with a length counter. -/
inductive Voice
  /-- The first pulse channel. -/
  | pulse1
  /-- The second pulse channel. -/
  | pulse2
  /-- The triangle channel. -/
  | triangle
  /-- The noise channel. -/
  | noise
deriving DecidableEq, Repr

namespace Voice

/-- The first of the channel's four registers. -/
def base : Voice → Nat
  | pulse1 => 0x4000
  | pulse2 => 0x4004
  | triangle => 0x4008
  | noise => 0x400C

/-- The channel's bit in the registers that enable channels and tell their state. -/
def bit : Voice → UInt8
  | pulse1 => 0x01
  | pulse2 => 0x02
  | triangle => 0x04
  | noise => 0x08

/-- The bit of the channel's first register that lets the length counter stand still. -/
def haltBit : Voice → UInt8
  | triangle => 0x80
  | _ => 0x20

/-- The channel's length counter. -/
def length (c : Voice) (a : Apu) : Length :=
  match c with
  | pulse1 => a.pulse1.length
  | pulse2 => a.pulse2.length
  | triangle => a.triangle.length
  | noise => a.noise.length

/-- The level of the channel. -/
def output (c : Voice) (a : Apu) : Nat :=
  match c with
  | pulse1 => a.pulse1.output
  | pulse2 => a.pulse2.output
  | triangle => a.triangle.output
  | noise => a.noise.output

end Voice

/-! ### What a length counter notices -/

/-- A length counter after a write to register `register % 4` of its channel. -/
def Length.written (haltBit : UInt8) (register : Nat) (v : UInt8) (l : Length) : Length :=
  match register % 4 with
  | 0 => { l with halt := v &&& haltBit != 0 }
  | 3 => l.load v
  | _ => l

theorem mod_four_cases (n : Nat) : n % 4 = 0 ∨ n % 4 = 1 ∨ n % 4 = 2 ∨ n % 4 = 3 := by omega

theorem Pulse.length_write (p : Pulse) (register : Nat) (v : UInt8) :
    (p.write register v).length = p.length.written 0x20 register v := by
  rcases mod_four_cases register with h | h | h | h <;> simp only [Pulse.write, Length.written, h]

theorem Triangle.length_write (t : Triangle) (register : Nat) (v : UInt8) :
    (t.write register v).length = t.length.written 0x80 register v := by
  rcases mod_four_cases register with h | h | h | h <;>
    simp only [Triangle.write, Length.written, h]

theorem Noise.length_write (n : Noise) (register : Nat) (v : UInt8) :
    (n.write register v).length = n.length.written 0x20 register v := by
  rcases mod_four_cases register with h | h | h | h <;> simp only [Noise.write, Length.written, h]

theorem Pulse.length_tick (p : Pulse) : p.tick.length = p.length := by
  unfold Pulse.tick
  split_ifs <;> rfl

theorem Triangle.length_tick (t : Triangle) : t.tick.length = t.length := by
  unfold Triangle.tick
  split_ifs <;> rfl

theorem Noise.length_tick (n : Noise) : n.tick.length = n.length := by
  unfold Noise.tick
  split_ifs <;> rfl

namespace Voice

/-- The channel's length counter after a write. -/
def written (c : Voice) (register : Nat) (v : UInt8) (l : Length) : Length :=
  if c.base ≤ register ∧ register ≤ c.base + 3 then l.written c.haltBit register v
  else if register = 0x4015 then l.setEnabled (v &&& c.bit != 0)
  else if register = 0x4017 ∧ (v &&& 0x80 != 0) = true then l.clock
  else l

theorem length_clockQuarter (c : Voice) (a : Apu) : c.length a.clockQuarter = c.length a := by
  cases c <;> rfl

theorem length_clockHalf (c : Voice) (a : Apu) : c.length a.clockHalf = (c.length a).clock := by
  cases c <;> rfl

theorem length_writeEnables (c : Voice) (a : Apu) (v : UInt8) :
    c.length (a.writeEnables v) = (c.length a).setEnabled (v &&& c.bit != 0) := by
  cases c <;> rfl

theorem length_withFrame (c : Voice) (a : Apu) (frame : FrameCounter) :
    c.length { a with frame } = c.length a := by
  cases c <;> rfl

theorem length_writeFrame (c : Voice) (a : Apu) (v : UInt8) :
    c.length (a.writeFrame v) = if v &&& 0x80 != 0 then (c.length a).clock else c.length a := by
  have hmode : (a.frame.write v).fiveStep = (v &&& 0x80 != 0) := rfl
  simp only [writeFrame, hmode]
  split_ifs
  · rw [length_clockHalf, length_clockQuarter, length_withFrame]
  · rw [length_withFrame]

theorem written_own {c : Voice} {register : Nat} (h : c.base ≤ register ∧ register ≤ c.base + 3)
    (v : UInt8) (l : Length) : c.written register v l = l.written c.haltBit register v := if_pos h

theorem written_other {c : Voice} {register : Nat}
    (h : ¬(c.base ≤ register ∧ register ≤ c.base + 3)) (h5 : register ≠ 0x4015)
    (h7 : register ≠ 0x4017) (v : UInt8) (l : Length) : c.written register v l = l := by
  rw [written, if_neg h, if_neg h5, if_neg fun h => h7 h.1]

theorem written_enables (c : Voice) (v : UInt8) (l : Length) :
    c.written 0x4015 v l = l.setEnabled (v &&& c.bit != 0) := by
  cases c <;> rfl

theorem written_frame (c : Voice) (v : UInt8) (l : Length) :
    c.written 0x4017 v l = if v &&& 0x80 != 0 then l.clock else l := by
  cases c <;> simp [written, base]

/-- A length counter notices writes to its channel and to the two common registers. -/
theorem length_write (c : Voice) (a : Apu) (addr : UInt16) (v : UInt8) :
    c.length (a.write addr v) = c.written addr.toNat v (c.length a) := by
  unfold Apu.write
  dsimp only
  generalize addr.toNat = register
  split_ifs with h1 h2 h3 h4 h5 h6 h7
  · cases c with
    | pulse1 => rw [written_own h1]; exact Pulse.length_write ..
    | _ => rw [written_other (by simp only [base]; omega) (by omega) (by omega)]; rfl
  · cases c with
    | pulse2 => rw [written_own h2]; exact Pulse.length_write ..
    | _ => rw [written_other (by simp only [base]; omega) (by omega) (by omega)]; rfl
  · cases c with
    | triangle => rw [written_own h3]; exact Triangle.length_write ..
    | _ => rw [written_other (by simp only [base]; omega) (by omega) (by omega)]; rfl
  · cases c with
    | noise => rw [written_own h4]; exact Noise.length_write ..
    | _ => rw [written_other (by simp only [base]; omega) (by omega) (by omega)]; rfl
  · cases c <;> rw [written_other (by simp only [base]; omega) (by omega) (by omega)] <;> rfl
  · rw [h6, written_enables, length_writeEnables]
  · rw [h7, written_frame, length_writeFrame]
  · cases c <;> rw [written_other (by simp only [base]; omega) h6 h7]

theorem length_tickFrame (c : Voice) (a : Apu) :
    c.length a.tickFrame =
      if FrameCounter.endsHalf a.frame.fiveStep (a.frame.cycle + 1) then (c.length a).clock
      else c.length a := by
  simp only [tickFrame]
  split_ifs <;> simp only [length_clockHalf, length_clockQuarter, length_withFrame]

theorem length_tickChannels (c : Voice) (a : Apu) : c.length a.tickChannels = c.length a := by
  unfold tickChannels
  dsimp only
  cases c <;> split_ifs <;>
    simp only [length, Pulse.length_tick, Triangle.length_tick, Noise.length_tick]

theorem length_tickSample (c : Voice) (a : Apu) : c.length a.tickSample = c.length a := by
  unfold tickSample
  dsimp only
  cases c <;> split_ifs <;> rfl

/-- The channel's length counter after an operation on a sound unit with a frame counter. -/
def after (c : Voice) (frame : FrameCounter) (l : Length) : Op → Length
  | .write addr v => c.written addr.toNat v l
  | .tick => if FrameCounter.endsHalf frame.fiveStep (frame.cycle + 1) then l.clock else l
  | .reset => l.setEnabled false
  | .readStatus | .feed _ => l

/-- **What a length counter notices.**  Of the rest of the sound unit, only the frame counter
matters to it. -/
theorem length_act (c : Voice) (a : Apu) (op : Op) :
    c.length (a.act op) = c.after a.frame (c.length a) op := by
  cases op with
  | write addr v => exact c.length_write a addr v
  | tick =>
    rw [Apu.act, tick, length_tickSample, length_tickChannels, length_tickFrame]
    rfl
  | readStatus => cases c <;> rfl
  | reset => cases c <;> rfl
  | feed v => cases c <;> rfl

/-- The state that the processor reads has a bit for each channel whose counter is not zero. -/
theorem statusByte_bit (c : Voice) (a : Apu) :
    (a.statusByte &&& c.bit != 0) = (c.length a).active := by
  unfold statusByte
  cases c <;> simp only [length, bit] <;>
    generalize a.pulse1.length.active = b1, a.pulse2.length.active = b2,
      a.triangle.length.active = b3, a.noise.length.active = b4, a.dmc.active = b5,
      a.frame.irq = b6, a.dmc.irq = b7 <;>
    decide +revert

end Voice

theorem statusByte_dmc (a : Apu) : (a.statusByte &&& 0x10 != 0) = a.dmc.active := by
  unfold statusByte
  generalize a.pulse1.length.active = b1, a.pulse2.length.active = b2,
    a.triangle.length.active = b3, a.noise.length.active = b4, a.dmc.active = b5,
    a.frame.irq = b6, a.dmc.irq = b7
  decide +revert

/-! ### Disabled channels -/

/-- The byte that enables channels after an operation. -/
def Op.enables (e : UInt8) : Op → UInt8
  | .write addr v => if addr.toNat = 0x4015 then v else e
  | .reset => 0
  | .tick | .readStatus | .feed _ => e

/-- The byte that enables channels after a history: the last that was written, none of them at
power-on and after a reset. -/
def enabledBy (ops : List Op) : UInt8 := ops.foldl Op.enables 0

/-- A length counter of a channel that is enabled or not, and stands at zero if it is not. -/
structure Length.Heeds (l : Length) (enabled : Bool) : Prop where
  /-- The counter knows of it. -/
  enabled_eq : l.enabled = enabled
  /-- The counter stands at zero. -/
  value_eq : enabled = false → l.value = 0

namespace Length.Heeds

variable {l : Length} {enabled : Bool}

theorem setEnabled (l : Length) (enabled : Bool) : (l.setEnabled enabled).Heeds enabled where
  enabled_eq := rfl
  value_eq h := by rw [h]; rfl

theorem clock (h : l.Heeds enabled) : l.clock.Heeds enabled := by
  unfold Length.clock
  split
  · exact h
  · refine ⟨h.enabled_eq, fun hdisabled => ?_⟩
    change l.value - 1 = 0
    rw [h.value_eq hdisabled]

theorem load (h : l.Heeds enabled) (v : UInt8) : (l.load v).Heeds enabled := by
  unfold Length.load
  split
  · next hl => exact ⟨h.enabled_eq, fun hdisabled =>
      Bool.noConfusion (hl.symm.trans (h.enabled_eq.trans hdisabled))⟩
  · exact h

theorem written (h : l.Heeds enabled) (haltBit : UInt8) (register : Nat) (v : UInt8) :
    (l.written haltBit register v).Heeds enabled := by
  unfold Length.written
  split
  · exact ⟨h.enabled_eq, h.value_eq⟩
  · exact h.load v
  · exact h

/-- A counter that heeds a byte heeds the one after an operation. -/
theorem after {c : Voice} {e : UInt8} (h : l.Heeds (e &&& c.bit != 0)) (frame : FrameCounter)
    (op : Op) : (c.after frame l op).Heeds (op.enables e &&& c.bit != 0) := by
  cases op with
  | write addr v =>
    simp only [Voice.after, Voice.written, Op.enables]
    split_ifs with hown h5 h5
    · cases c <;> simp only [Voice.base] at hown <;> omega
    · exact h.written ..
    · exact setEnabled ..
    · exact h.clock
    · exact h
  | tick =>
    simp only [Voice.after, Op.enables]
    split_ifs
    · exact h.clock
    · exact h
  | readStatus => exact h
  | reset =>
    have hnone : ((0 : UInt8) &&& c.bit != 0) = false := by cases c <;> rfl
    rw [Op.enables, hnone]
    exact setEnabled l false
  | feed v => exact h

end Length.Heeds

/-- A channel whose counter stands at zero is silent. -/
theorem Voice.output_eq_zero {c : Voice} {a : Apu} (h : (c.length a).value = 0) :
    c.output a = 0 := by
  have hactive : (c.length a).active = false := by rw [Length.active, h]; rfl
  cases c <;> simp only [Voice.length] at hactive <;>
    simp [Voice.output, Pulse.output, Triangle.output, Triangle.running, Noise.output, hactive]

/-! ### The sample channel -/

namespace Dmc

/-- No sample is being read, and no interrupt is requested. -/
structure Idle (d : Dmc) : Prop where
  /-- No bytes are left. -/
  remaining : d.remaining = 0
  /-- No interrupt is requested. -/
  irq : d.irq = false

variable {d : Dmc}

theorem Idle.active (h : d.Idle) : d.active = false := by
  rw [Dmc.active, h.remaining]
  rfl

theorem Idle.fetchAddress (h : d.Idle) : d.fetchAddress = none :=
  fetchAddress_eq_none (by rw [wants, h.active, Bool.and_false])

/-- No register starts a sample. -/
theorem Idle.write (h : d.Idle) (register : Nat) (v : UInt8) : (d.write register v).Idle := by
  unfold Dmc.write
  split
  · exact ⟨h.remaining, by simp only [h.irq, Bool.false_and]⟩
  · exact ⟨h.remaining, h.irq⟩
  · exact ⟨h.remaining, h.irq⟩
  · exact ⟨h.remaining, h.irq⟩

theorem Idle.tick (h : d.Idle) : d.tick.Idle := by
  unfold Dmc.tick
  split
  · exact ⟨h.remaining, h.irq⟩
  · unfold clockBit
    dsimp only
    split
    · split <;> exact ⟨h.remaining, h.irq⟩
    · exact ⟨h.remaining, h.irq⟩

end Dmc

/-- The sample channel notices its registers and the one that enables channels. -/
theorem dmc_write (a : Apu) (addr : UInt16) (v : UInt8) :
    (a.write addr v).dmc =
      if 0x4010 ≤ addr.toNat ∧ addr.toNat ≤ 0x4013 then a.dmc.write addr.toNat v
      else if addr.toNat = 0x4015 then
        ({ a.dmc with irq := false } : Dmc).setEnabled (v &&& 0x10 != 0)
      else a.dmc := by
  have hframe : (a.writeFrame v).dmc = a.dmc := by
    unfold writeFrame
    dsimp only
    split_ifs <;> rfl
  unfold Apu.write
  dsimp only
  split_ifs <;> first | rfl | exact hframe | omega

/-! ### Histories -/

/-- Disabled channels are at rest. -/
structure Heeds (a : Apu) (e : UInt8) : Prop where
  /-- The channels with a length counter. -/
  length (c : Voice) : (c.length a).Heeds (e &&& c.bit != 0)
  /-- The sample channel. -/
  dmc : (e &&& 0x10 != 0) = false → a.dmc.Idle

theorem heeds_powerOn (sampleRate : Nat) (cpuHz : Float) : (powerOn sampleRate cpuHz).Heeds 0 where
  length c := by cases c <;> exact ⟨rfl, fun _ => rfl⟩
  dmc _ := ⟨rfl, rfl⟩

/-- The sample channel is fed only if it asks for a byte. -/
def Op.Wanted (a : Apu) : Op → Prop
  | .feed _ => a.dmc.fetchAddress.isSome = true
  | _ => True

theorem Heeds.act {a : Apu} {e : UInt8} (h : a.Heeds e) {op : Op} (hop : op.Wanted a) :
    (a.act op).Heeds (op.enables e) := by
  refine ⟨fun c => ?_, ?_⟩
  · rw [c.length_act]
    exact (h.length c).after a.frame op
  · intro hdisabled
    cases op with
    | write addr v =>
      rw [Apu.act, dmc_write]
      simp only [Op.enables] at hdisabled
      split_ifs at hdisabled ⊢ with hown h5 h5
      · omega
      · exact (h.dmc hdisabled).write ..
      · rw [hdisabled]
        exact ⟨rfl, rfl⟩
      · exact h.dmc hdisabled
    | tick =>
      rw [Apu.act, dmc_tick]
      exact (h.dmc hdisabled).tick
    | readStatus => exact h.dmc hdisabled
    | reset => exact ⟨rfl, rfl⟩
    | feed v =>
      -- A channel at rest does not ask.
      have hnone := (h.dmc hdisabled).fetchAddress
      rw [Op.Wanted, hnone] at hop
      exact Bool.noConfusion hop

/-- Every byte of a history is fed to a sample channel that asks for it. -/
def Answered (a : Apu) (ops : List Op) : Prop :=
  ∀ before v after, ops = before ++ .feed v :: after →
    (a.run before).dmc.fetchAddress.isSome = true

theorem Answered.head {a : Apu} {op : Op} {ops : List Op} (h : a.Answered (op :: ops)) :
    op.Wanted a := by
  cases op with
  | feed v => exact h [] v ops rfl
  | _ => trivial

theorem Answered.tail {a : Apu} {op : Op} {ops : List Op} (h : a.Answered (op :: ops)) :
    (a.act op).Answered ops := by
  intro before v after heq
  exact h (op :: before) v after (by rw [heq, List.cons_append])

theorem Heeds.run {a : Apu} {e : UInt8} (h : a.Heeds e) {ops : List Op} (hops : a.Answered ops) :
    (a.run ops).Heeds (ops.foldl Op.enables e) := by
  induction ops generalizing a e with
  | nil => exact h
  | cons op ops ih => exact ih (h.act hops.head) hops.tail

/-- **A disabled channel is silent.**  After any history in which the sample channel is fed only
when it asks for a byte, a channel that was last disabled, or never enabled, has its length counter
at zero, is silent and is not told of in the state.  The sample channel, if disabled, is not told of
either, does not ask for a byte and requests no interrupt. -/
theorem disabled_silent (sampleRate : Nat) (cpuHz : Float) {ops : List Op}
    (hops : (powerOn sampleRate cpuHz).Answered ops) :
    let a := (powerOn sampleRate cpuHz).run ops
    (∀ c : Voice, enabledBy ops &&& c.bit = 0 →
      (c.length a).value = 0 ∧ c.output a = 0 ∧ a.readStatus.1 &&& c.bit = 0) ∧
    (enabledBy ops &&& 0x10 = 0 →
      a.readStatus.1 &&& 0x10 = 0 ∧ a.dmc.fetchAddress = none ∧ a.dmc.irq = false) := by
  intro a
  have hend : a.Heeds (enabledBy ops) := (heeds_powerOn sampleRate cpuHz).run hops
  refine ⟨fun c hc => ?_, fun hdmc => ?_⟩
  · have hvalue := (hend.length c).value_eq (bne_eq_false_iff_eq.2 hc)
    refine ⟨hvalue, Voice.output_eq_zero hvalue, ?_⟩
    rw [← bne_eq_false_iff_eq, readStatus, c.statusByte_bit, Length.active, hvalue]
    rfl
  · have hidle := hend.dmc (bne_eq_false_iff_eq.2 hdmc)
    refine ⟨?_, hidle.fetchAddress, hidle.irq⟩
    rw [← bne_eq_false_iff_eq, readStatus, statusByte_dmc, hidle.active]

/-- A channel that was playing and a sample that ended are both put to rest, and a new length does
not start the channel again. -/
theorem disabled_silent_again :
    let ops : List Op :=
      [.write 0x4010 0x80, .write 0x4015 0x11, .feed 0x55, .write 0x4003 0x18, .tick,
        .write 0x4015 0x0E, .write 0x4003 0x18, .tick]
    (powerOn 44100 1789773).Answered ops ∧
      Voice.pulse1.output ((powerOn 44100 1789773).run ops) = 0 ∧
      ((powerOn 44100 1789773).run ops).dmc.irq = false := by
  intro ops
  have hops : (powerOn 44100 1789773).Answered ops := by
    rintro (_ | ⟨_, _ | ⟨_, _ | ⟨_, rest⟩⟩⟩) v after heq
    · simp [ops] at heq
    · simp [ops] at heq
    · simp only [ops, List.cons_append, List.nil_append, List.cons.injEq] at heq
      obtain ⟨rfl, rfl, -⟩ := heq
      rfl
    · -- There is one byte only.
      simp only [ops, List.cons_append, List.cons.injEq] at heq
      have hmem : Op.feed v ∈ rest ++ .feed v :: after := by simp
      simp [← heq.2.2.2] at hmem
  obtain ⟨hvoices, hdmc⟩ := disabled_silent 44100 1789773 hops
  exact ⟨hops, (hvoices .pulse1 (by decide)).2.1, (hdmc (by decide)).2.2⟩

end Nes.Apu
