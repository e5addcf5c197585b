import Nes.Proofs.Apu.Sequencer
import Mathlib.Data.List.Induction
import Mathlib.Logic.Function.Iterate

/-!
# What the channels notice

A channel notices the ticks of its timer, the ends of quarter and half frames, whether it is
enabled, and the writes to its registers (`Apu.Event`).  Every operation on the sound unit is a
short list of such events for it (`Voice.events`), and a run of operations a longer one
(`Voice.history`): what becomes of a channel is told by these events alone (`Voice.channel_run`).

The timers of the triangle and of the noise channel tick with every cycle, and those of the pulse
channels with every second one (`Voice.ticks_history`).
-/

namespace Nes.Apu

/-- What a channel notices. -/
inductive Event
  /-- A tick of its timer. -/
  | tick
  /-- The end of a quarter frame. -/
  | quarter
  /-- The end of a half frame. -/
  | half
  /-- The channel is enabled or disabled. -/
  | enable (on : Bool)
  /-- A write to one of its registers. -/
  | write (register : Nat) (v : UInt8)
deriving DecidableEq, Repr

namespace Event

/-- A tick of the timer. -/
def isTick : Event → Bool
  | tick => true
  | _ => false

/-- The end of a half frame. -/
def isHalf : Event → Bool
  | half => true
  | _ => false

/-- A write to a register. -/
def isWrite : Event → Bool
  | write _ _ => true
  | _ => false

end Event

/-- **What only some events move.**  If a part of a unit goes on by `f` with events of one kind and
stays where it is with all others, then it has gone on once for each event of that kind. -/
theorem part_foldl {σ β : Type} (on : σ → Event → σ) (part : σ → β) (f : β → β)
    (kind : Event → Bool) {s : σ} {es : List Event}
    (h : ∀ before e, before ++ [e] <+: es → part (on (before.foldl on s) e) =
      if kind e then f (part (before.foldl on s)) else part (before.foldl on s)) :
    part (es.foldl on s) = f^[es.countP kind] (part s) := by
  -- From the last event on, since the condition speaks of the state before an event.
  induction es using List.reverseRecOn with
  | nil => rfl
  | append_singleton es e ih =>
    have hbefore := ih fun before e' hpre => h before e' (hpre.trans (List.prefix_append ..))
    have hlast := h es e (List.prefix_refl _)
    rw [List.foldl_append, List.countP_append, List.countP_singleton]
    refine hlast.trans ?_
    rw [hbefore]
    split
    · rw [Function.iterate_succ_apply']
    · rfl

/-- **What every event but a write keeps, a run without writes keeps.** -/
theorem run_induction {σ : Type} {on : σ → Event → σ} {P : σ → Prop} {s : σ} {es : List Event}
    (step : ∀ s e, e.isWrite = false → P s → P (on s e)) (hwrites : ∀ e ∈ es, e.isWrite = false)
    (h : P s) : P (es.foldl on s) := by
  induction es generalizing s with
  | nil => exact h
  | cons e es ih =>
    rw [List.forall_mem_cons] at hwrites
    exact ih hwrites.2 (step s e hwrites.1 h)

/-- Where nothing is written, an event and those before it are no writes. -/
theorem isWrite_upTo {before es : List Event} {e : Event}
    (hwrites : ∀ e ∈ es, e.isWrite = false) (hbefore : before ++ [e] <+: es) :
    (∀ e ∈ before, e.isWrite = false) ∧ e.isWrite = false := by
  obtain ⟨hfirst, hlast⟩ := List.forall_mem_append.1 fun e he => hwrites e (hbefore.subset he)
  exact ⟨hfirst, hlast e List.mem_cons_self⟩

/-! ### The channels -/

/-- A pulse channel after an event. -/
def Pulse.on (p : Pulse) : Event → Pulse
  | .tick => p.tick
  | .quarter => { p with envelope := p.envelope.clock }
  | .half => Pulse.clockSweep { p with length := p.length.clock }
  | .enable on => { p with length := p.length.setEnabled on }
  | .write register v => p.write register v

/-- The triangle channel after an event. -/
def Triangle.on (t : Triangle) : Event → Triangle
  | .tick => t.tick
  | .quarter => t.clockLinear
  | .half => { t with length := t.length.clock }
  | .enable on => { t with length := t.length.setEnabled on }
  | .write register v => t.write register v

/-- The noise channel after an event. -/
def Noise.on (n : Noise) : Event → Noise
  | .tick => n.tick
  | .quarter => { n with envelope := n.envelope.clock }
  | .half => { n with length := n.length.clock }
  | .enable on => { n with length := n.length.setEnabled on }
  | .write register v => n.write register v

/-- A pulse channel after some events. -/
def Pulse.run (p : Pulse) (es : List Event) : Pulse := es.foldl Pulse.on p

/-- The triangle channel after some events. -/
def Triangle.run (t : Triangle) (es : List Event) : Triangle := es.foldl Triangle.on t

/-- The noise channel after some events. -/
def Noise.run (n : Noise) (es : List Event) : Noise := es.foldl Noise.on n

namespace Voice

/-- The states of a channel. -/
def Channel : Voice → Type
  | pulse1 | pulse2 => Pulse
  | triangle => Triangle
  | noise => Noise

/-- The channel in the sound unit. -/
def channel (c : Voice) (a : Apu) : c.Channel :=
  match c with
  | pulse1 => a.pulse1
  | pulse2 => a.pulse2
  | triangle => a.triangle
  | noise => a.noise

/-- The channel after an event. -/
def on (c : Voice) (s : c.Channel) (e : Event) : c.Channel :=
  match c with
  | pulse1 => Pulse.on s e
  | pulse2 => Pulse.on s e
  | triangle => Triangle.on s e
  | noise => Noise.on s e

/-- The channel after some events. -/
def through (c : Voice) (s : c.Channel) (es : List Event) : c.Channel := es.foldl c.on s

theorem through_append (c : Voice) (s : c.Channel) (es es' : List Event) :
    c.through s (es ++ es') = c.through (c.through s es) es' := List.foldl_append

/-! ### The events of an operation -/

/-- The timer of the channel ticks with the next cycle. -/
def ticksNext (c : Voice) (a : Apu) : Bool :=
  match c with
  | pulse1 | pulse2 => a.oddCycle
  | triangle | noise => true

/-- The events of a write. -/
def writeEvents (c : Voice) (register : Nat) (v : UInt8) : List Event :=
  if c.base ≤ register ∧ register ≤ c.base + 3 then [.write register v]
  else if register = 0x4015 then [.enable (v &&& c.bit != 0)]
  else if register = 0x4017 ∧ (v &&& 0x80 != 0) = true then [.quarter, .half]
  else []

/-- What the frame counter does with a cycle. -/
def frameEvents (a : Apu) : List Event :=
  (if FrameCounter.endsQuarter a.frame.fiveStep (a.frame.cycle + 1) then [.quarter] else []) ++
    if FrameCounter.endsHalf a.frame.fiveStep (a.frame.cycle + 1) then [.half] else []

/-- The events of an operation. -/
def events (c : Voice) (a : Apu) : Op → List Event
  | .write addr v => c.writeEvents addr.toNat v
  | .tick => frameEvents a ++ if c.ticksNext a then [.tick] else []
  | .reset => [.enable false]
  | .readStatus | .feed _ => []

/-- The events of a run. -/
def history (c : Voice) (a : Apu) : List Op → List Event
  | [] => []
  | op :: ops => c.events a op ++ c.history (a.act op) ops

theorem channel_clockQuarter (c : Voice) (a : Apu) :
    c.channel a.clockQuarter = c.on (c.channel a) .quarter := by
  cases c <;> rfl

theorem channel_clockHalf (c : Voice) (a : Apu) :
    c.channel a.clockHalf = c.on (c.channel a) .half := by
  cases c <;> rfl

theorem channel_withFrame (c : Voice) (a : Apu) (frame : FrameCounter) :
    c.channel { a with frame } = c.channel a := by
  cases c <;> rfl

theorem channel_writeEnables (c : Voice) (a : Apu) (v : UInt8) :
    c.channel (a.writeEnables v) = c.on (c.channel a) (.enable (v &&& c.bit != 0)) := by
  cases c <;> rfl

theorem channel_writeFrame (c : Voice) (a : Apu) (v : UInt8) :
    c.channel (a.writeFrame v) =
      c.through (c.channel a) (if v &&& 0x80 != 0 then [.quarter, .half] else []) := by
  have hmode : (a.frame.write v).fiveStep = (v &&& 0x80 != 0) := rfl
  simp only [writeFrame, hmode]
  split_ifs
  · rw [channel_clockHalf, channel_clockQuarter, channel_withFrame]
    rfl
  · rw [channel_withFrame]
    rfl

theorem writeEvents_own {c : Voice} {register : Nat}
    (h : c.base ≤ register ∧ register ≤ c.base + 3) (v : UInt8) :
    c.writeEvents register v = [.write register v] := if_pos h

theorem writeEvents_other {c : Voice} {register : Nat}
    (h : ¬(c.base ≤ register ∧ register ≤ c.base + 3)) (h5 : register ≠ 0x4015)
    (h7 : register ≠ 0x4017) (v : UInt8) : c.writeEvents register v = [] := by
  rw [writeEvents, if_neg h, if_neg h5, if_neg fun h => h7 h.1]

theorem writeEvents_enables (c : Voice) (v : UInt8) :
    c.writeEvents 0x4015 v = [.enable (v &&& c.bit != 0)] := by
  cases c <;> rfl

theorem writeEvents_frame (c : Voice) (v : UInt8) :
    c.writeEvents 0x4017 v = if v &&& 0x80 != 0 then [.quarter, .half] else [] := by
  cases c <;> simp [writeEvents, base]

/-- A channel notices writes to its own registers and to the two common ones. -/
theorem channel_write (c : Voice) (a : Apu) (addr : UInt16) (v : UInt8) :
    c.channel (a.write addr v) = c.through (c.channel a) (c.writeEvents addr.toNat v) := by
  unfold Apu.write
  dsimp only
  generalize addr.toNat = register
  -- A register that belongs to one channel does not belong to another.
  split_ifs with h1 h2 h3 h4 h5 h6 h7
  · cases c with
    | pulse1 => rw [writeEvents_own h1]; rfl
    | _ => rw [writeEvents_other (by simp only [base]; omega) (by omega) (by omega)]; rfl
  · cases c with
    | pulse2 => rw [writeEvents_own h2]; rfl
    | _ => rw [writeEvents_other (by simp only [base]; omega) (by omega) (by omega)]; rfl
  · cases c with
    | triangle => rw [writeEvents_own h3]; rfl
    | _ => rw [writeEvents_other (by simp only [base]; omega) (by omega) (by omega)]; rfl
  · cases c with
    | noise => rw [writeEvents_own h4]; rfl
    | _ => rw [writeEvents_other (by simp only [base]; omega) (by omega) (by omega)]; rfl
  · cases c <;> rw [writeEvents_other (by simp only [base]; omega) (by omega) (by omega)] <;> rfl
  · rw [channel_writeEnables, h6, writeEvents_enables]
    rfl
  · rw [channel_writeFrame, h7, writeEvents_frame]
  · cases c <;> rw [writeEvents_other (by simp only [base]; omega) h6 h7] <;> rfl

theorem channel_tickFrame (c : Voice) (a : Apu) :
    c.channel a.tickFrame = c.through (c.channel a) (frameEvents a) := by
  simp only [tickFrame, frameEvents]
  split_ifs <;> simp only [channel_clockHalf, channel_clockQuarter, channel_withFrame] <;> rfl

theorem channel_tickChannels (c : Voice) (a : Apu) :
    c.channel a.tickChannels =
      c.through (c.channel a) (if c.ticksNext a then [.tick] else []) := by
  cases h : a.oddCycle <;> cases c <;> simp only [tickChannels, ticksNext, h] <;> rfl

theorem channel_tickSample (c : Voice) (a : Apu) : c.channel a.tickSample = c.channel a := by
  unfold tickSample
  dsimp only
  cases c <;> split_ifs <;> rfl

end Voice

theorem oddCycle_tickFrame (a : Apu) : a.tickFrame.oddCycle = a.oddCycle := by
  simp only [tickFrame]
  split_ifs <;> rfl

theorem oddCycle_write (a : Apu) (addr : UInt16) (v : UInt8) :
    (a.write addr v).oddCycle = a.oddCycle := by
  have hframe : (a.writeFrame v).oddCycle = a.oddCycle := by
    unfold writeFrame
    dsimp only
    split_ifs <;> rfl
  unfold Apu.write
  dsimp only
  split_ifs <;> first | rfl | exact hframe

/-- Every cycle is odd or even. -/
theorem oddCycle_tick (a : Apu) : a.tick.oddCycle = !a.oddCycle := by
  have hsample : ∀ b : Apu, b.tickSample.oddCycle = b.oddCycle := by
    intro b
    simp only [tickSample]
    split <;> rfl
  have hchannels : ∀ b : Apu, b.tickChannels.oddCycle = !b.oddCycle := by
    intro b
    simp only [tickChannels]
    split <;> rfl
  rw [tick, hsample, hchannels, oddCycle_tickFrame]

theorem oddCycle_act (a : Apu) (op : Op) :
    (a.act op).oddCycle = if op.isTick then !a.oddCycle else a.oddCycle := by
  cases op with
  | write addr v => exact oddCycle_write a addr v
  | tick => exact oddCycle_tick a
  | _ => rfl

namespace Voice

/-- **What a channel notices** of an operation. -/
theorem channel_act (c : Voice) (a : Apu) (op : Op) :
    c.channel (a.act op) = c.through (c.channel a) (c.events a op) := by
  cases op with
  | write addr v => exact c.channel_write a addr v
  | tick =>
    have hnext : c.ticksNext a.tickFrame = c.ticksNext a := by
      cases c <;> simp only [ticksNext, oddCycle_tickFrame]
    rw [Apu.act, tick, channel_tickSample, channel_tickChannels, channel_tickFrame, hnext, events,
      through_append]
  | readStatus => cases c <;> rfl
  | reset => cases c <;> rfl
  | feed v => cases c <;> rfl

theorem channel_run (c : Voice) (a : Apu) (ops : List Op) :
    c.channel (a.run ops) = c.through (c.channel a) (c.history a ops) := by
  induction ops generalizing a with
  | nil => rfl
  | cons op ops ih =>
    rw [history, through_append, ← channel_act]
    exact ih (a.act op)

theorem history_append (c : Voice) (a : Apu) (ops ops' : List Op) :
    c.history a (ops ++ ops') = c.history a ops ++ c.history (a.run ops) ops' := by
  induction ops generalizing a with
  | nil => rfl
  | cons op ops ih =>
    rw [List.cons_append, history, history, ih, List.append_assoc]
    rfl

/-! ### Ticks and writes -/

theorem ticks_frameEvents (a : Apu) : (frameEvents a).countP Event.isTick = 0 := by
  unfold frameEvents
  split_ifs <;> rfl

theorem ticks_events (c : Voice) (a : Apu) (op : Op) :
    (c.events a op).countP Event.isTick = if op.isTick && c.ticksNext a then 1 else 0 := by
  cases op with
  | write addr v =>
    simp only [events, writeEvents]
    split_ifs <;> first | rfl | contradiction
  | tick =>
    rw [events, List.countP_append, ticks_frameEvents, Nat.zero_add, Op.isTick, Bool.true_and]
    split <;> rfl
  | _ => rfl

/-- The cycles in which the timer of a channel ticks: every one, or every second one. -/
def tickCount (c : Voice) (a : Apu) (cycles : Nat) : Nat :=
  match c with
  | pulse1 | pulse2 => (cycles + a.oddCycle.toNat) / 2
  | triangle | noise => cycles

theorem tickCount_zero (c : Voice) (a : Apu) : c.tickCount a 0 = 0 := by
  cases c with
  | pulse1 | pulse2 =>
    have hlt := a.oddCycle.toNat_lt
    simp only [tickCount]
    omega
  | triangle | noise => rfl

/-- A cycle comes before the others. -/
theorem tickCount_succ (c : Voice) (a : Apu) (n : Nat) :
    c.tickCount a (n + 1) = (if c.ticksNext a then 1 else 0) + c.tickCount a.tick n := by
  cases c with
  | pulse1 | pulse2 =>
    simp only [tickCount, ticksNext, oddCycle_tick]
    rcases Bool.eq_false_or_eq_true a.oddCycle with h | h <;>
      simp only [h, Bool.not_true, Bool.not_false, Bool.toNat_true, Bool.toNat_false,
        Bool.false_eq_true, ↓reduceIte] <;>
      omega
  | triangle | noise => exact Nat.add_comm ..

theorem tickCount_act {op : Op} (hop : op.isTick = false) (c : Voice) (a : Apu) (n : Nat) :
    c.tickCount (a.act op) n = c.tickCount a n := by
  have hodd : (a.act op).oddCycle = a.oddCycle := by
    rw [oddCycle_act, hop]
    rfl
  cases c <;> simp only [tickCount, hodd]

/-- **How often a timer ticks.** -/
theorem ticks_history (c : Voice) (a : Apu) (ops : List Op) :
    (c.history a ops).countP Event.isTick = c.tickCount a (ops.countP Op.isTick) := by
  induction ops generalizing a with
  | nil => exact (c.tickCount_zero a).symm
  | cons op ops ih =>
    rw [history, List.countP_append, ticks_events, ih]
    cases h : op.isTick with
    | true =>
      obtain rfl : op = .tick := by cases op <;> first | rfl | exact Bool.noConfusion h
      rw [List.countP_cons_of_pos rfl, tickCount_succ, Bool.true_and]
      rfl
    | false =>
      rw [List.countP_cons_of_neg (Bool.eq_false_iff.1 h), tickCount_act h, Bool.false_and,
        if_neg Bool.false_ne_true, Nat.zero_add]

/-- A write to a register of the channel. -/
def writes (c : Voice) : Op → Bool
  | .write addr _ => decide (c.base ≤ addr.toNat ∧ addr.toNat ≤ c.base + 3)
  | _ => false

theorem isWrite_events {c : Voice} {op : Op} (hop : c.writes op = false) (a : Apu) :
    ∀ e ∈ c.events a op, e.isWrite = false := by
  cases op with
  | write addr v =>
    have hown : ¬(c.base ≤ addr.toNat ∧ addr.toNat ≤ c.base + 3) := of_decide_eq_false hop
    simp only [events, writeEvents, if_neg hown]
    split_ifs <;> simp [Event.isWrite]
  | tick =>
    simp only [events, frameEvents]
    split_ifs <;> simp [Event.isWrite]
  | reset => simp [events, Event.isWrite]
  | readStatus | feed v => simp [events]

/-- Without a write to its registers a channel notices none. -/
theorem isWrite_history {c : Voice} (a : Apu) {ops : List Op}
    (hops : ∀ op ∈ ops, c.writes op = false) : ∀ e ∈ c.history a ops, e.isWrite = false := by
  induction ops generalizing a with
  | nil => exact nofun
  | cons op ops ih =>
    rw [List.forall_mem_cons] at hops
    exact List.forall_mem_append.2 ⟨isWrite_events hops.1 a, ih (a.act op) hops.2⟩

end Voice

/-! ### The channels of the sound unit -/

/-- The pulse channels. -/
def pulse (a : Apu) : PulseChannel → Pulse
  | .one => a.pulse1
  | .two => a.pulse2

/-- A pulse channel among those with a length counter. -/
def PulseChannel.voice : PulseChannel → Voice
  | .one => .pulse1
  | .two => .pulse2

theorem pulse_run (a : Apu) (c : PulseChannel) (ops : List Op) :
    (a.run ops).pulse c = (a.pulse c).run (c.voice.history a ops) := by
  cases c
  · exact Voice.channel_run .pulse1 a ops
  · exact Voice.channel_run .pulse2 a ops

theorem triangle_run (a : Apu) (ops : List Op) :
    (a.run ops).triangle = a.triangle.run (Voice.triangle.history a ops) :=
  Voice.channel_run .triangle a ops

theorem noise_run (a : Apu) (ops : List Op) :
    (a.run ops).noise = a.noise.run (Voice.noise.history a ops) :=
  Voice.channel_run .noise a ops

end Nes.Apu
