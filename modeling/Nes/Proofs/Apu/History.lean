import Nes.Proofs.Apu.Checked

/-!
# Histories of the sound unit

The sound unit is written to, clocked, asked for its state, reset and fed, in any order
(`Apu.Op`).  Its registers keep to their ranges (`Apu.Fits`), so that no history stops it, and the
levels of its channels stay inside the tables of the mixer (`Apu.history_checked`).
-/

namespace Nes.Apu

open Checked

/-! ### The sound unit in words -/

/-- `Apu.clockQuarter` with counters that count down from numbers above zero. -/
def clockQuarter? (a : Apu) : Option Apu := do
  let envelope1 ← a.pulse1.envelope.clock?
  let envelope2 ← a.pulse2.envelope.clock?
  let envelope ← a.noise.envelope.clock?
  let triangle ← a.triangle.clockLinear?
  some { a with
    pulse1 := { a.pulse1 with envelope := envelope1 }
    pulse2 := { a.pulse2 with envelope := envelope2 }
    noise := { a.noise with envelope }
    triangle }

/-- `Apu.clockHalf` with counters that count down from numbers above zero, and periods in words. -/
def clockHalf? (a : Apu) : Option Apu := do
  let length1 ← a.pulse1.length.clock?
  let length2 ← a.pulse2.length.clock?
  let length3 ← a.triangle.length.clock?
  let length4 ← a.noise.length.clock?
  let pulse1 ← Pulse.clockSweep? { a.pulse1 with length := length1 }
  let pulse2 ← Pulse.clockSweep? { a.pulse2 with length := length2 }
  some { a with
    pulse1
    pulse2
    triangle := { a.triangle with length := length3 }
    noise := { a.noise with length := length4 } }

/-- `Apu.writeFrame`, which may end a quarter and a half frame. -/
def writeFrame? (a : Apu) (v : UInt8) : Option Apu :=
  let a := { a with frame := a.frame.write v }
  if a.frame.fiveStep then do
    let a ← a.clockQuarter?
    a.clockHalf?
  else some a

/-- `Apu.write` with tables that are read inside their bounds. -/
def write? (a : Apu) (addr : UInt16) (v : UInt8) : Option Apu :=
  let register := addr.toNat
  if 0x4000 ≤ register ∧ register ≤ 0x4003 then do
    let pulse1 ← a.pulse1.write? register v
    some { a with pulse1 }
  else if 0x4004 ≤ register ∧ register ≤ 0x4007 then do
    let pulse2 ← a.pulse2.write? register v
    some { a with pulse2 }
  else if 0x4008 ≤ register ∧ register ≤ 0x400B then do
    let triangle ← a.triangle.write? register v
    some { a with triangle }
  else if 0x400C ≤ register ∧ register ≤ 0x400F then do
    let noise ← a.noise.write? register v
    some { a with noise }
  else if 0x4010 ≤ register ∧ register ≤ 0x4013 then do
    let dmc ← a.dmc.write? register v
    some { a with dmc }
  else if register = 0x4015 then some (a.writeEnables v)
  else if register = 0x4017 then a.writeFrame? v
  else some a

/-- `Apu.feed` in words. -/
def feed? (a : Apu) (v : UInt8) : Option Apu := do
  let dmc ← a.dmc.feed? v
  some { a with dmc }

/-- `Apu.mix` with sums and tables. -/
def mix? (a : Apu) : Option Float32 := do
  let pulse1 ← a.pulse1.output?
  let pulse2 ← a.pulse2.output?
  let triangle ← a.triangle.output?
  Mixer.mix? pulse1 pulse2 triangle a.noise.output a.dmc.level

/-- The end of a quarter frame, if it is one. -/
def quarter? (a : Apu) (ends : Bool) : Option Apu := if ends then a.clockQuarter? else some a

/-- The end of a half frame, if it is one. -/
def half? (a : Apu) (ends : Bool) : Option Apu := if ends then a.clockHalf? else some a

/-- `Apu.tickFrame` with a count of 32 bits. -/
def tickFrame? (a : Apu) : Option Apu := do
  let cycle ← add 32 a.frame.cycle 1
  let q ← { a with frame := a.frame.tick }.quarter?
    (FrameCounter.endsQuarter a.frame.fiveStep cycle)
  q.half? (FrameCounter.endsHalf a.frame.fiveStep cycle)

/-- A cycle for the pulse channels, which work at every second one. -/
def tickPulses? (a : Apu) : Option Apu :=
  if a.oddCycle then do
    let pulse1 ← a.pulse1.tick?
    let pulse2 ← a.pulse2.tick?
    some { a with pulse1, pulse2 }
  else some a

/-- `Apu.tickChannels` with timers that count down from numbers above zero. -/
def tickChannels? (a : Apu) : Option Apu := do
  let a ← a.tickPulses?
  let triangle ← a.triangle.tick?
  let noise ← a.noise.tick?
  let dmc ← a.dmc.tick?
  some { a with oddCycle := !a.oddCycle, triangle, noise, dmc }

/-- `Apu.tickSample` with tables that are read inside their bounds. -/
def tickSample? (a : Apu) : Option Apu :=
  let phase := a.phase + 1
  if phase ≥ a.cyclesPerSample then do
    let a := { a with phase := phase - a.cyclesPerSample }
    let sample ← a.mix?
    some (a.emit sample)
  else some { a with phase }

/-- `Apu.tick` in words. -/
def tick? (a : Apu) : Option Apu := do
  let a ← a.tickFrame?
  let a ← a.tickChannels?
  a.tickSample?

/-! ### The ranges of the registers -/

/-- The frame counter is inside its sequence. -/
def FrameCounter.Fits (f : FrameCounter) : Prop := f.cycle < FrameCounter.period f.fiveStep

/-- The registers keep to their ranges. -/
structure Fits (a : Apu) : Prop where
  /-- The first pulse channel. -/
  pulse1 : a.pulse1.Fits
  /-- The second pulse channel. -/
  pulse2 : a.pulse2.Fits
  /-- The noise channel. -/
  noise : a.noise.Fits
  /-- The sample channel. -/
  dmc : a.dmc.Fits
  /-- The frame counter. -/
  frame : a.frame.Fits

variable {a : Apu}

theorem fits_powerOn (sampleRate : Nat) (cpuHz : Float) : (powerOn sampleRate cpuHz).Fits where
  pulse1 := Pulse.fits_new .one
  pulse2 := Pulse.fits_new .two
  noise := Noise.fits_new
  dmc := Dmc.fits_new
  frame := Nat.succ_pos 29829

theorem FrameCounter.fits_write (f : FrameCounter) (v : UInt8) : (f.write v).Fits := by
  unfold Fits FrameCounter.write period
  dsimp only
  split_ifs <;> decide

theorem FrameCounter.fits_tick (f : FrameCounter) : f.tick.Fits := by
  unfold Fits FrameCounter.tick
  dsimp only
  split_ifs with hend
  · unfold period
    split_ifs <;> decide
  · exact Nat.lt_of_not_le hend

theorem Fits.clockQuarter (h : a.Fits) : a.clockQuarter.Fits where
  pulse1 := h.pulse1.clockEnvelope
  pulse2 := h.pulse2.clockEnvelope
  noise := h.noise.clockEnvelope
  dmc := h.dmc
  frame := h.frame

theorem Fits.clockHalf (h : a.Fits) : a.clockHalf.Fits where
  pulse1 := (h.pulse1.withLength _).clockSweep
  pulse2 := (h.pulse2.withLength _).clockSweep
  noise := h.noise.withLength _
  dmc := h.dmc
  frame := h.frame

theorem Fits.writeEnables (h : a.Fits) (v : UInt8) : (a.writeEnables v).Fits where
  pulse1 := h.pulse1.withLength _
  pulse2 := h.pulse2.withLength _
  noise := h.noise.withLength _
  dmc := Dmc.Fits.setEnabled (d := { a.dmc with irq := false })
    ⟨h.dmc.slow, h.dmc.level_le, h.dmc.sampleAddr, h.dmc.currentAddr⟩ _
  frame := h.frame

theorem Fits.withFrame (h : a.Fits) {frame : FrameCounter} (hframe : frame.Fits) :
    ({ a with frame } : Apu).Fits := ⟨h.pulse1, h.pulse2, h.noise, h.dmc, hframe⟩

theorem Fits.writeFrame (h : a.Fits) (v : UInt8) : (a.writeFrame v).Fits := by
  have hframe := h.withFrame (a.frame.fits_write v)
  unfold Apu.writeFrame
  dsimp only
  split_ifs
  · exact hframe.clockQuarter.clockHalf
  · exact hframe

theorem Fits.write (h : a.Fits) (addr : UInt16) (v : UInt8) : (a.write addr v).Fits := by
  unfold Apu.write
  dsimp only
  split_ifs
  · exact ⟨h.pulse1.write _ v, h.pulse2, h.noise, h.dmc, h.frame⟩
  · exact ⟨h.pulse1, h.pulse2.write _ v, h.noise, h.dmc, h.frame⟩
  · exact ⟨h.pulse1, h.pulse2, h.noise, h.dmc, h.frame⟩
  · exact ⟨h.pulse1, h.pulse2, h.noise.write _ v, h.dmc, h.frame⟩
  · exact ⟨h.pulse1, h.pulse2, h.noise, h.dmc.write _ v, h.frame⟩
  · exact h.writeEnables v
  · exact h.writeFrame v
  · exact h

theorem Fits.feed (h : a.Fits) (v : UInt8) : (a.feed v).Fits :=
  ⟨h.pulse1, h.pulse2, h.noise, h.dmc.feed v, h.frame⟩

theorem Fits.tickFrame (h : a.Fits) : a.tickFrame.Fits := by
  have hframe := h.withFrame a.frame.fits_tick
  unfold Apu.tickFrame
  dsimp only
  split_ifs
  · exact hframe.clockQuarter.clockHalf
  · exact hframe.clockHalf
  · exact hframe.clockQuarter
  · exact hframe

theorem Fits.tickChannels (h : a.Fits) : a.tickChannels.Fits := by
  unfold Apu.tickChannels
  dsimp only
  split_ifs
  · exact ⟨h.pulse1.tick, h.pulse2.tick, h.noise.tick, h.dmc.tick, h.frame⟩
  · exact ⟨h.pulse1, h.pulse2, h.noise.tick, h.dmc.tick, h.frame⟩

theorem Fits.tickSample (h : a.Fits) : a.tickSample.Fits := by
  unfold Apu.tickSample
  dsimp only
  split_ifs <;> exact ⟨h.pulse1, h.pulse2, h.noise, h.dmc, h.frame⟩

/-! ### No stop -/

theorem clockQuarter?_eq (a : Apu) : a.clockQuarter? = some a.clockQuarter :=
  bind_eq a.pulse1.envelope.clock?_eq <| bind_eq a.pulse2.envelope.clock?_eq <|
    bind_eq a.noise.envelope.clock?_eq <| bind_eq a.triangle.clockLinear?_eq rfl

theorem Fits.clockHalf?_eq (h : a.Fits) : a.clockHalf? = some a.clockHalf :=
  bind_eq a.pulse1.length.clock?_eq <| bind_eq a.pulse2.length.clock?_eq <|
    bind_eq a.triangle.length.clock?_eq <| bind_eq a.noise.length.clock?_eq <|
    bind_eq (h.pulse1.withLength _).clockSweep?_eq <|
    bind_eq (h.pulse2.withLength _).clockSweep?_eq rfl

theorem Fits.writeFrame?_eq (h : a.Fits) (v : UInt8) :
    a.writeFrame? v = some (a.writeFrame v) := by
  have hframe := h.withFrame (a.frame.fits_write v)
  unfold writeFrame? Apu.writeFrame
  dsimp only
  split_ifs
  · exact bind_eq (clockQuarter?_eq _) hframe.clockQuarter.clockHalf?_eq
  · rfl

theorem Fits.write?_eq (h : a.Fits) (addr : UInt16) (v : UInt8) :
    a.write? addr v = some (a.write addr v) := by
  unfold write? Apu.write
  dsimp only
  split_ifs
  · exact bind_eq (a.pulse1.write?_eq _ v) rfl
  · exact bind_eq (a.pulse2.write?_eq _ v) rfl
  · exact bind_eq (a.triangle.write?_eq _ v) rfl
  · exact bind_eq (a.noise.write?_eq _ v) rfl
  · exact bind_eq (a.dmc.write?_eq _ v) rfl
  · rfl
  · exact h.writeFrame?_eq v
  · rfl

theorem feed?_eq (a : Apu) (v : UInt8) : a.feed? v = some (a.feed v) :=
  bind_eq (a.dmc.feed?_eq v) rfl

theorem Fits.mix?_eq (h : a.Fits) : a.mix? = some a.mix :=
  bind_eq h.pulse1.output?_eq <| bind_eq h.pulse2.output?_eq <| bind_eq a.triangle.output?_eq <|
    Mixer.mix?_eq h.pulse1.output_le h.pulse2.output_le a.triangle.output_le h.noise.output_le
      h.dmc.level_le

theorem quarter?_eq (a : Apu) (ends : Bool) :
    a.quarter? ends = some (if ends then a.clockQuarter else a) := by
  cases ends with
  | true => exact a.clockQuarter?_eq
  | false => rfl

theorem Fits.half?_eq (h : a.Fits) (ends : Bool) :
    a.half? ends = some (if ends then a.clockHalf else a) := by
  cases ends with
  | true => exact h.clockHalf?_eq
  | false => rfl

theorem Fits.quarter (h : a.Fits) (ends : Bool) :
    (if ends then a.clockQuarter else a).Fits := by
  cases ends with
  | true => exact h.clockQuarter
  | false => exact h

theorem Fits.tickFrame?_eq (h : a.Fits) : a.tickFrame? = some a.tickFrame := by
  have hframe := h.withFrame a.frame.fits_tick
  have hcycle : a.frame.cycle + 1 < 2 ^ 32 := by
    have hlt := h.frame
    unfold FrameCounter.Fits FrameCounter.period at hlt
    split_ifs at hlt <;> omega
  -- A half frame that ends with a quarter is clocked after it.
  exact bind_eq (add_eq hcycle) <| bind_eq (quarter?_eq _ _) <| (hframe.quarter _).half?_eq _

theorem tickPulses?_eq (a : Apu) :
    a.tickPulses? =
      some (if a.oddCycle then { a with pulse1 := a.pulse1.tick, pulse2 := a.pulse2.tick }
        else a) := by
  unfold tickPulses?
  split_ifs
  · exact bind_eq a.pulse1.tick?_eq (bind_eq a.pulse2.tick?_eq rfl)
  · rfl

theorem Fits.tickChannels?_eq (h : a.Fits) : a.tickChannels? = some a.tickChannels := by
  unfold tickChannels? Apu.tickChannels
  refine bind_eq a.tickPulses?_eq ?_
  split_ifs <;>
    exact bind_eq a.triangle.tick?_eq <| bind_eq h.noise.tick?_eq <| bind_eq h.dmc.tick?_eq rfl

theorem Fits.tickSample?_eq (h : a.Fits) : a.tickSample? = some a.tickSample := by
  unfold tickSample? Apu.tickSample
  dsimp only
  split_ifs
  · exact bind_eq (Fits.mix?_eq ⟨h.pulse1, h.pulse2, h.noise, h.dmc, h.frame⟩) rfl
  · rfl

theorem Fits.tick (h : a.Fits) : a.tick.Fits := h.tickFrame.tickChannels.tickSample

theorem Fits.tick?_eq (h : a.Fits) : a.tick? = some a.tick :=
  bind_eq h.tickFrame?_eq <| bind_eq h.tickFrame.tickChannels?_eq
    h.tickFrame.tickChannels.tickSample?_eq

/-! ### Histories -/

/-- What happens to the sound unit. -/
inductive Op where
  /-- A write to a register. -/
  | write (addr : UInt16) (v : UInt8)
  /-- A cycle of the processor. -/
  | tick
  /-- A read of the state. -/
  | readStatus
  /-- A reset. -/
  | reset
  /-- The sample channel receives a byte. -/
  | feed (v : UInt8)
deriving DecidableEq, Repr

/-- The sound unit after an operation. -/
def act (a : Apu) : Op → Apu
  | .write addr v => a.write addr v
  | .tick => a.tick
  | .readStatus => a.readStatus.2
  | .reset => a.reset
  | .feed v => a.feed v

/-- `Apu.act` in words. -/
def act? (a : Apu) : Op → Option Apu
  | .write addr v => a.write? addr v
  | .tick => a.tick?
  | .readStatus => some a.readStatus.2
  | .reset => some a.reset
  | .feed v => a.feed? v

/-- The sound unit after a history. -/
def run (a : Apu) (ops : List Op) : Apu := ops.foldl act a

/-- `Apu.run` in words. -/
def run? (a : Apu) (ops : List Op) : Option Apu := ops.foldlM act? a

theorem Fits.reset (h : a.Fits) : a.reset.Fits := by
  have henables := h.writeEnables 0
  refine ⟨henables.pulse1, henables.pulse2, henables.noise, henables.dmc, ?_⟩
  change 0 < FrameCounter.period a.frame.fiveStep
  unfold FrameCounter.period
  split_ifs <;> decide

theorem Fits.act (h : a.Fits) (op : Op) : (a.act op).Fits := by
  cases op with
  | write addr v => exact h.write addr v
  | tick => exact h.tick
  | readStatus => exact ⟨h.pulse1, h.pulse2, h.noise, h.dmc, h.frame⟩
  | reset => exact h.reset
  | feed v => exact h.feed v

theorem Fits.act?_eq (h : a.Fits) (op : Op) : a.act? op = some (a.act op) := by
  cases op with
  | write addr v => exact h.write?_eq addr v
  | tick => exact h.tick?_eq
  | readStatus => rfl
  | reset => rfl
  | feed v => exact a.feed?_eq v

theorem Fits.run (h : a.Fits) (ops : List Op) : (a.run ops).Fits := by
  induction ops generalizing a with
  | nil => exact h
  | cons op ops ih => exact ih (h.act op)

theorem Fits.run?_eq (h : a.Fits) (ops : List Op) : a.run? ops = some (a.run ops) := by
  induction ops generalizing a with
  | nil => rfl
  | cons op ops ih =>
    rw [run?, List.foldlM_cons]
    exact bind_eq (h.act?_eq op) (ih (h.act op))

/-- What can be seen of the sound unit is in its range, and the mixer looks its output up inside its
tables. -/
structure InRange (a : Apu) : Prop where
  /-- The period of the first pulse channel has eleven bits. -/
  period1_le : a.pulse1.period ≤ 0x7FF
  /-- The period of the second pulse channel has eleven bits. -/
  period2_le : a.pulse2.period ≤ 0x7FF
  /-- The volume of the first pulse channel has four bits. -/
  envelope1_le : a.pulse1.envelope.output ≤ 15
  /-- The volume of the second pulse channel has four bits. -/
  envelope2_le : a.pulse2.envelope.output ≤ 15
  /-- The volume of the noise channel has four bits. -/
  envelope_le : a.noise.envelope.output ≤ 15
  /-- The output of the first pulse channel has four bits. -/
  pulse1_le : a.pulse1.output ≤ 15
  /-- The output of the second pulse channel has four bits. -/
  pulse2_le : a.pulse2.output ≤ 15
  /-- The output of the triangle channel has four bits. -/
  triangle_le : a.triangle.output ≤ 15
  /-- The output of the noise channel has four bits. -/
  noise_le : a.noise.output ≤ 15
  /-- The level of the sample channel has seven bits. -/
  level_le : a.dmc.level ≤ 127
  /-- Bytes of samples are fetched from the program. -/
  fetchAddress_ge {addr : UInt16} : a.dmc.fetchAddress = some addr → 0x8000 ≤ addr.toNat
  /-- The frame counter is inside the sequence of four or of five steps. -/
  cycle_lt : a.frame.cycle < if a.frame.fiveStep then 37282 else 29830
  /-- The table of the pulse channels has the sum of their outputs. -/
  pulse_lt : a.pulse1.output + a.pulse2.output < 31
  /-- The table of the other channels has the weighted sum of theirs. -/
  tnd_lt : Mixer.tndIndex a.triangle.output a.noise.output a.dmc.level < 203

theorem Fits.inRange (h : a.Fits) : a.InRange where
  period1_le := h.pulse1.period_le
  period2_le := h.pulse2.period_le
  envelope1_le := h.pulse1.envelope.output_le
  envelope2_le := h.pulse2.envelope.output_le
  envelope_le := h.noise.envelope.output_le
  pulse1_le := h.pulse1.output_le
  pulse2_le := h.pulse2.output_le
  triangle_le := a.triangle.output_le
  noise_le := h.noise.output_le
  level_le := h.dmc.level_le
  fetchAddress_ge := h.dmc.fetchAddress
  cycle_lt := h.frame
  pulse_lt := Nat.lt_succ_of_le (Nat.add_le_add h.pulse1.output_le h.pulse2.output_le)
  tnd_lt := Mixer.tndIndex_lt a.triangle.output_le h.noise.output_le h.dmc.level_le

/-- No history stops the sound unit: a run in words answers what a run of the library does.  After
every history the registers are in their ranges and the mixer has an output. -/
theorem history_checked (sampleRate : Nat) (cpuHz : Float) (ops : List Op) :
    let a := (powerOn sampleRate cpuHz).run ops
    (powerOn sampleRate cpuHz).run? ops = some a ∧ a.InRange ∧ a.mix? = some a.mix := by
  have hstart := fits_powerOn sampleRate cpuHz
  have hend := hstart.run ops
  exact ⟨hstart.run?_eq ops, hend.inRange, hend.mix?_eq⟩

end Nes.Apu
