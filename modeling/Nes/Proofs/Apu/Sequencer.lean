import Nes.Proofs.Apu.Voices
import Mathlib.Data.List.Range

/-!
# The schedule of the frame counter

A write to the frame counter starts a sequence of four or of five steps.  From then on the counter
stands at the number of ticks, modulo the length of the sequence (`FrameCounter.Sequenced`), and
every tick knows from that number alone whether it ends a quarter or a half of a frame and whether
it requests an interrupt (`FrameCounter.Sequenced.endsQuarter`, `FrameCounter.Sequenced.endsHalf`,
`FrameCounter.Sequenced.irq_tick`).  Nothing but another write to the frame counter and a reset
disturbs this (`sequenced_run`, `frame_schedule`).

A length counter that is left alone counts the ends of half frames (`length_run`).
-/

namespace Nes.Apu

namespace FrameCounter

/-- The ticks of a sequence that end a quarter of a frame. -/
def quarters (fiveStep : Bool) : List Nat :=
  if fiveStep then [7457, 14913, 22371, 37281] else [7457, 14913, 22371, 29829]

/-- The ticks of a sequence that end a half of a frame. -/
def halves (fiveStep : Bool) : List Nat := if fiveStep then [14913, 37281] else [14913, 29829]

/-- A quarter frame ends with the tick of a number since the sequence was started. -/
def quarterAt (fiveStep : Bool) (n : Nat) : Bool :=
  (quarters fiveStep).contains (n % period fiveStep)

/-- A half frame ends with the tick of a number since the sequence was started. -/
def halfAt (fiveStep : Bool) (n : Nat) : Bool := (halves fiveStep).contains (n % period fiveStep)

/-- An interrupt is requested with the tick of a number, if the byte that started the sequence
selects four steps and allows interrupts. -/
def irqAt (d : UInt8) (n : Nat) : Bool :=
  !(d &&& 0x80 != 0) && !(d &&& 0x40 != 0) && n % 29830 == 29829

/-- The frame counter, a number of ticks after the byte `d` has started a sequence. -/
structure Sequenced (d : UInt8) (n : Nat) (f : FrameCounter) : Prop where
  /-- The byte selects the sequence. -/
  fiveStep : f.fiveStep = (d &&& 0x80 != 0)
  /-- The byte forbids interrupts. -/
  inhibit : f.inhibit = (d &&& 0x40 != 0)
  /-- The counter goes around with the sequence. -/
  cycle : f.cycle = n % period (d &&& 0x80 != 0)
  /-- An interrupt that is forbidden is not requested. -/
  irq : (d &&& 0x40 != 0) = true → f.irq = false

variable {d : UInt8} {n : Nat} {f : FrameCounter}

theorem sequenced_write (f : FrameCounter) (d : UInt8) : (f.write d).Sequenced d 0 where
  fiveStep := rfl
  inhibit := rfl
  cycle := (Nat.zero_mod _).symm
  irq h := by simp only [write, h, Bool.not_true, Bool.and_false]

theorem mod_period (fiveStep : Bool) (n : Nat) :
    (n + 1) % period fiveStep =
      if period fiveStep ≤ n % period fiveStep + 1 then 0 else n % period fiveStep + 1 := by
  have hperiod : period fiveStep = 29830 ∨ period fiveStep = 37282 := by
    cases fiveStep <;> decide
  generalize period fiveStep = length at hperiod ⊢
  rcases hperiod with rfl | rfl <;> split_ifs <;> omega

/-- No step of a sequence is at its end, where the counter goes back to zero. -/
theorem endsHalf_succ (fiveStep : Bool) (n : Nat) :
    endsHalf fiveStep (n % period fiveStep + 1) = halfAt fiveStep (n + 1) := by
  have hlt : n % period fiveStep < period fiveStep :=
    Nat.mod_lt n (by cases fiveStep <;> decide)
  rw [halfAt, mod_period]
  split_ifs with hend
  · rw [show n % period fiveStep + 1 = period fiveStep by omega]
    cases fiveStep <;> decide
  · cases fiveStep <;> simp [endsHalf, halves, lastStep, period, beq_eq_decide]

theorem endsQuarter_succ (fiveStep : Bool) (n : Nat) :
    endsQuarter fiveStep (n % period fiveStep + 1) = quarterAt fiveStep (n + 1) := by
  have hlt : n % period fiveStep < period fiveStep :=
    Nat.mod_lt n (by cases fiveStep <;> decide)
  rw [quarterAt, mod_period]
  split_ifs with hend
  · rw [show n % period fiveStep + 1 = period fiveStep by omega]
    cases fiveStep <;> decide
  · cases fiveStep <;>
      simp [endsQuarter, endsHalf, quarters, lastStep, period, beq_eq_decide, Bool.or_assoc,
        Bool.or_left_comm]

namespace Sequenced

theorem endsHalf (h : f.Sequenced d n) :
    FrameCounter.endsHalf f.fiveStep (f.cycle + 1) = halfAt (d &&& 0x80 != 0) (n + 1) := by
  rw [h.fiveStep, h.cycle, endsHalf_succ]

theorem endsQuarter (h : f.Sequenced d n) :
    FrameCounter.endsQuarter f.fiveStep (f.cycle + 1) = quarterAt (d &&& 0x80 != 0) (n + 1) := by
  rw [h.fiveStep, h.cycle, endsQuarter_succ]

theorem irq_tick (h : f.Sequenced d n) : f.tick.irq = (f.irq || irqAt d (n + 1)) := by
  simp only [FrameCounter.tick, h.fiveStep, h.inhibit, h.cycle, irqAt]
  cases (d &&& 0x80 != 0) with
  | true => rfl
  | false =>
    have hlast : (n % period false + 1 == lastStep false) = ((n + 1) % 29830 == 29829) := by
      rw [Bool.eq_iff_iff, beq_iff_eq, beq_iff_eq]
      simp only [period, lastStep, Bool.false_eq_true, ↓reduceIte]
      omega
    rw [hlast, Bool.not_false, Bool.true_and, Bool.true_and, Bool.and_comm]

theorem tick (h : f.Sequenced d n) : f.tick.Sequenced d (n + 1) where
  fiveStep := h.fiveStep
  inhibit := h.inhibit
  cycle := by
    rw [mod_period, ← h.cycle, ← h.fiveStep]
    rfl
  irq hinhibit := by
    rw [h.irq_tick, h.irq hinhibit, irqAt, hinhibit, Bool.not_true, Bool.and_false]
    rfl

end Sequenced

end FrameCounter

/-! ### Runs -/

namespace Op

/-- A tick. -/
def isTick : Op → Bool
  | tick => true
  | _ => false

/-- The operation does not start the sequence again. -/
def keepsSequence : Op → Bool
  | write addr _ => addr.toNat != 0x4017
  | reset => false
  | _ => true

end Op

theorem frame_write (a : Apu) (addr : UInt16) (v : UInt8) :
    (a.write addr v).frame = if addr.toNat = 0x4017 then a.frame.write v else a.frame := by
  have hframe : (a.writeFrame v).frame = a.frame.write v := by
    unfold writeFrame
    dsimp only
    split_ifs <;> rfl
  unfold Apu.write
  dsimp only
  split_ifs <;> first | rfl | exact hframe | omega

theorem frame_tick (a : Apu) : a.tick.frame = a.frame.tick := by
  have hsample : ∀ b : Apu, b.tickSample.frame = b.frame := by
    intro b
    simp only [tickSample]
    split <;> rfl
  have hchannels : ∀ b : Apu, b.tickChannels.frame = b.frame := by
    intro b
    simp only [tickChannels]
    split <;> rfl
  rw [Apu.tick, hsample, hchannels]
  simp only [tickFrame]
  split <;> split <;> rfl

/-- What the frame counter notices. -/
theorem frame_act (a : Apu) {op : Op} (hop : op.keepsSequence = true) :
    (a.act op).frame =
      match op with
      | .tick => a.frame.tick
      | .readStatus => { a.frame with irq := false }
      | _ => a.frame := by
  cases op with
  | write addr v => exact (frame_write a addr v).trans (if_neg (bne_iff_ne.1 hop))
  | tick => exact frame_tick a
  | readStatus => rfl
  | reset => exact Bool.noConfusion hop
  | feed v => rfl

theorem sequenced_act {d : UInt8} {n : Nat} {a : Apu} (h : a.frame.Sequenced d n) {op : Op}
    (hop : op.keepsSequence = true) :
    (a.act op).frame.Sequenced d (n + if op.isTick then 1 else 0) := by
  rw [frame_act a hop]
  cases op with
  | tick => exact h.tick
  | readStatus => exact ⟨h.fiveStep, h.inhibit, h.cycle, fun _ => rfl⟩
  | _ => exact h

/-- **A run keeps the schedule.** -/
theorem sequenced_run {d : UInt8} {n : Nat} {a : Apu} (h : a.frame.Sequenced d n) {ops : List Op}
    (hops : ∀ op ∈ ops, op.keepsSequence = true) :
    (a.run ops).frame.Sequenced d (n + ops.countP Op.isTick) := by
  induction ops generalizing a n with
  | nil => exact h
  | cons op ops ih =>
    rw [List.forall_mem_cons] at hops
    rw [List.countP_cons, Nat.add_comm (List.countP _ ops), ← Nat.add_assoc]
    exact ih (sequenced_act h hops.1) hops.2

/-! ### Length counters -/

/-- The ends of half frames within some ticks after others. -/
def halfFrames (fiveStep : Bool) (n ticks : Nat) : Nat :=
  (List.range' (n + 1) ticks).countP (FrameCounter.halfAt fiveStep)

/-- An operation leaves a length counter that runs alone: it neither loads it nor lets it stand
still nor disables its channel. -/
def Voice.Spares (c : Voice) : Op → Prop
  | .write addr v =>
    addr.toNat ≠ c.base + 3 ∧ (addr.toNat = c.base → (v &&& c.haltBit != 0) = false) ∧
      (addr.toNat = 0x4015 → (v &&& c.bit != 0) = true)
  | .reset => False
  | _ => True

/-- A length counter that runs. -/
def Length.running (value : Nat) : Length := { enabled := true, halt := false, value }

theorem Voice.base_mod (c : Voice) : c.base % 4 = 0 := by
  cases c <;> rfl

theorem Voice.written_spared {c : Voice} {addr : UInt16} {v : UInt8} (h : c.Spares (.write addr v))
    (hop : (Op.write addr v).keepsSequence = true) (value : Nat) :
    c.written addr.toNat v (Length.running value) = Length.running value := by
  obtain ⟨hload, hhalt, henable⟩ := h
  have hbase := c.base_mod
  have hsequence : addr.toNat ≠ 0x4017 := bne_iff_ne.1 hop
  unfold Voice.written
  split_ifs with hown h5 h7
  · unfold Length.written
    split
    · rw [hhalt (by omega)]
      rfl
    · omega
    · rfl
  · rw [henable h5]
    rfl
  · exact absurd h7.1 hsequence
  · rfl

theorem Voice.written_load (c : Voice) (v : UInt8) (l : Length) :
    c.written (c.base + 3) v l = l.load v := by
  cases c <;> rfl

theorem Length.clock_running (value : Nat) :
    (Length.running value).clock = Length.running (value - 1) := rfl

theorem halfFrames_succ (fiveStep : Bool) (n ticks : Nat) :
    halfFrames fiveStep n (ticks + 1) =
      (if FrameCounter.halfAt fiveStep (n + 1) then 1 else 0) +
        halfFrames fiveStep (n + 1) ticks := by
  rw [halfFrames, List.range'_succ, List.countP_cons, Nat.add_comm]
  rfl

/-- **A length counter that is left alone** counts the ends of half frames. -/
theorem length_run {c : Voice} {d : UInt8} {n value : Nat} {a : Apu} (h : a.frame.Sequenced d n)
    (hc : c.length a = Length.running value) {ops : List Op}
    (hops : ∀ op ∈ ops, op.keepsSequence = true ∧ c.Spares op) :
    c.length (a.run ops) =
      Length.running (value - halfFrames (d &&& 0x80 != 0) n (ops.countP Op.isTick)) := by
  induction ops generalizing a n value with
  | nil => exact hc
  | cons op ops ih =>
    rw [List.forall_mem_cons] at hops
    obtain ⟨⟨hkeeps, hspares⟩, hrest⟩ := hops
    have hnext := sequenced_act h hkeeps
    have hact := c.length_act a op
    rw [hc] at hact
    cases op with
    | tick =>
      rw [List.countP_cons_of_pos rfl, halfFrames_succ, ← Nat.sub_sub]
      refine ih hnext (hact.trans ?_) hrest
      rw [Voice.after, h.endsHalf]
      split_ifs
      · exact Length.clock_running value
      · rfl
    | write addr v => exact ih hnext (hact.trans (Voice.written_spared hspares hkeeps value)) hrest
    | readStatus => exact ih hnext hact hrest
    | reset => exact hspares.elim
    | feed v => exact ih hnext hact hrest

/-- Two half frames end in a sequence. -/
theorem halfFrames_zero (fiveStep : Bool) (n : Nat) :
    halfFrames fiveStep 0 n =
      2 * (n / FrameCounter.period fiveStep) +
        (if 14913 ≤ n % FrameCounter.period fiveStep then 1 else 0) +
        if FrameCounter.lastStep fiveStep ≤ n % FrameCounter.period fiveStep then 1 else 0 := by
  induction n with
  | zero => cases fiveStep <;> rfl
  | succ n ih =>
    rw [halfFrames, List.range'_1_concat, List.countP_append, ← halfFrames, ih,
      List.countP_singleton, FrameCounter.halfAt, Nat.zero_add, Nat.add_comm 1 n]
    cases fiveStep <;>
      simp only [FrameCounter.halves, FrameCounter.lastStep, FrameCounter.period,
        Bool.false_eq_true, ↓reduceIte, List.contains_cons, List.contains_nil, Bool.or_false,
        Bool.or_eq_true, beq_iff_eq] <;>
      split_ifs <;> omega

/-! ### The schedule -/

/-- The end of a quarter and of a half frame, if there is one. -/
def beat (a : Apu) (quarter half : Bool) : Apu :=
  let a := if quarter then a.clockQuarter else a
  if half then a.clockHalf else a

theorem writeFrame_eq (a : Apu) (d : UInt8) :
    a.writeFrame d =
      ({ a with frame := a.frame.write d } : Apu).beat (d &&& 0x80 != 0) (d &&& 0x80 != 0) := by
  have hmode : (a.frame.write d).fiveStep = (d &&& 0x80 != 0) := rfl
  simp only [writeFrame, beat, hmode]
  split_ifs <;> rfl

theorem tick_of_sequenced {d : UInt8} {n : Nat} {a : Apu} (h : a.frame.Sequenced d n) :
    a.tick =
      (({ a with frame := a.frame.tick } : Apu).beat
        (FrameCounter.quarterAt (d &&& 0x80 != 0) (n + 1))
        (FrameCounter.halfAt (d &&& 0x80 != 0) (n + 1))).tickChannels.tickSample := by
  rw [← h.endsQuarter, ← h.endsHalf]
  rfl

theorem sequenced_start (a : Apu) (d : UInt8) : (a.write 0x4017 d).frame.Sequenced d 0 := by
  have hframe : (a.write 0x4017 d).frame = a.frame.write d := frame_write a 0x4017 d
  rw [hframe]
  exact FrameCounter.sequenced_write a.frame d

theorem Voice.toNat_lastRegister (c : Voice) : (UInt16.ofNat (c.base + 3)).toNat = c.base + 3 := by
  cases c <;> rfl

theorem sequenced_loaded {d : UInt8} {n : Nat} {a : Apu} (h : a.frame.Sequenced d n) (c : Voice)
    (v : UInt8) : (a.write (UInt16.ofNat (c.base + 3)) v).frame.Sequenced d n := by
  rw [frame_write, c.toNat_lastRegister, if_neg (by cases c <;> decide)]
  exact h

/-- A counter is loaded in full, even if half a frame has just ended. -/
theorem length_loaded {a : Apu} {c : Voice} (henabled : (c.length a).enabled = true)
    (hhalt : (c.length a).halt = false) (d v : UInt8) :
    c.length ((a.write 0x4017 d).write (UInt16.ofNat (c.base + 3)) v) =
      Length.running (Length.ofByte v) := by
  have hbefore : c.length a = Length.running (c.length a).value := by
    rw [Length.running, ← henabled, ← hhalt]
  rw [c.length_write, c.toNat_lastRegister, Voice.written_load, c.length_write, hbefore]
  change (c.written 0x4017 d _).load v = _
  rw [Voice.written_frame]
  split_ifs <;> rfl

/-- **The schedule of the frame counter.**  A write of `d` to the frame counter starts a sequence,
of five steps if bit 7 is set, and then ends a quarter and a half frame at once.

From then on, whatever else happens to the sound unit but another such write and a reset, the
counter stands at the number `n` of ticks modulo the length of the sequence.  The next tick ends a
quarter or a half frame if its number is one of a fixed list.  The request for an interrupt comes
with a tick of a fixed number, goes with a read of the state, and there is none if bit 6 is set.

A length counter that runs and is loaded right after the write is active until as many half frames
have ended as it was loaded with. -/
theorem frame_schedule (a : Apu) (d : UInt8) :
    let fiveStep := d &&& 0x80 != 0
    let start := a.write 0x4017 d
    start = ({ a with frame := a.frame.write d } : Apu).beat fiveStep fiveStep ∧
    (∀ ops : List Op, (∀ op ∈ ops, op.keepsSequence = true) →
      let p := start.run ops
      let n := ops.countP Op.isTick
      p.frame.cycle = n % (if fiveStep then 37282 else 29830) ∧
      p.tick = (({ p with frame := p.frame.tick } : Apu).beat
        (FrameCounter.quarterAt fiveStep (n + 1))
        (FrameCounter.halfAt fiveStep (n + 1))).tickChannels.tickSample ∧
      (∀ op : Op, op.keepsSequence = true → (p.act op).frame.irq =
        match op with
        | .tick => p.frame.irq || FrameCounter.irqAt d (n + 1)
        | .readStatus => false
        | _ => p.frame.irq) ∧
      ((d &&& 0x40 != 0) = true → p.frame.irq = false)) ∧
    ∀ (c : Voice) (v : UInt8) (ops : List Op), (c.length a).enabled = true →
      (c.length a).halt = false → (∀ op ∈ ops, op.keepsSequence = true ∧ c.Spares op) →
      let p := (start.write (UInt16.ofNat (c.base + 3)) v).run ops
      let n := ops.countP Op.isTick
      (p.readStatus.1 &&& c.bit != 0) =
        decide ((List.range' 1 n).countP (FrameCounter.halfAt fiveStep) < Length.ofByte v) := by
  intro fiveStep start
  refine ⟨writeFrame_eq a d, ?_, ?_⟩
  · intro ops hops p n
    have hp : p.frame.Sequenced d n := by
      have hrun := sequenced_run (sequenced_start a d) hops
      rwa [Nat.zero_add] at hrun
    refine ⟨hp.cycle, tick_of_sequenced hp, fun op hop => ?_, hp.irq⟩
    rw [frame_act p hop]
    cases op with
    | tick => exact hp.irq_tick
    | _ => rfl
  · intro c v ops henabled hhalt hops p n
    have hloaded := sequenced_loaded (sequenced_start a d) c v
    rw [readStatus, c.statusByte_bit,
      length_run hloaded (length_loaded henabled hhalt d v) hops, Length.active,
      Bool.eq_iff_iff, decide_eq_true_iff, decide_eq_true_iff]
    exact Nat.sub_pos_iff_lt

/-- A counter loaded with two is active until the tick before the second half frame ends, whatever
else is read and written, and stands at zero after it. -/
theorem frame_schedule_two :
    let a := (powerOn 44100 1789773).write 0x4015 0x01
    let start := (a.write 0x4017 0x00).write 0x4003 0x18
    let ops := List.replicate 29828 Op.tick ++ [.readStatus, .write 0x4001 0x9F]
    (start.run ops).readStatus.1 &&& 0x01 ≠ 0 ∧
      (start.run (ops ++ [.tick])).readStatus.1 &&& 0x01 = 0 := by
  intro a start ops
  have hspared : ∀ op ∈ ops ++ [.tick], op.keepsSequence = true ∧ Voice.pulse1.Spares op := by
    intro op hop
    simp only [ops, List.mem_append, List.mem_replicate, List.mem_cons, List.not_mem_nil,
      or_false] at hop
    obtain (⟨-, rfl⟩ | rfl | rfl) | rfl := hop
    · exact ⟨rfl, trivial⟩
    · exact ⟨rfl, trivial⟩
    · exact ⟨rfl, by decide, fun _ => rfl, fun h => by revert h; decide⟩
    · exact ⟨rfl, trivial⟩
  have hticks : ops.countP Op.isTick = 29828 := by
    rw [List.countP_append, List.countP_replicate]
    rfl
  have hlaw : ∀ ops : List Op, (∀ op ∈ ops, op.keepsSequence = true ∧ Voice.pulse1.Spares op) →
      ((start.run ops).readStatus.1 &&& 0x01 != 0) =
        decide (halfFrames false 0 (ops.countP Op.isTick) < 2) :=
    fun ops hops => (frame_schedule a 0x00).2.2 .pulse1 0x18 ops rfl rfl hops
  have hactive := hlaw ops fun op hop => hspared op (List.mem_append_left _ hop)
  have hended := hlaw (ops ++ [.tick]) hspared
  rw [hticks, halfFrames_zero] at hactive
  rw [List.countP_append, hticks, halfFrames_zero] at hended
  exact ⟨bne_iff_ne.1 hactive, bne_eq_false_iff_eq.1 hended⟩

end Nes.Apu
