import Nes.Apu.Envelope
import Nes.Apu.Length

/-!
# Pulse channels

A pulse channel repeats a pattern of eight steps, one of four.  Its sweep unit changes the period
step by step; a period that is too short, or that the sweep would make too long, mutes the channel.
The two channels of the console differ in how far the sweep goes down.
-/

namespace Nes.Apu

/-- The two pulse channels. -/
inductive PulseChannel
  /-- Its sweep goes down by one more than the change. -/
  | one
  /-- Its sweep goes down by the change. -/
  | two
deriving DecidableEq, Repr, Inhabited

/-- A sweep unit. -/
structure Sweep where
  /-- The unit changes the period. -/
  enabled : Bool := false
  /-- One less than the half frames between two changes. -/
  period : Nat := 0
  /-- The period becomes shorter. -/
  negate : Bool := false
  /-- The change is the period shifted right by this number. -/
  shift : Nat := 0
  /-- The half frames left until the next change. -/
  divider : Nat := 0
  /-- The divider starts over at the next clock. -/
  reload : Bool := false
deriving DecidableEq, Repr, Inhabited

namespace Sweep

/-- Sets the unit from a byte; the divider starts over. -/
def write (s : Sweep) (v : UInt8) : Sweep :=
  { s with
    enabled := v &&& 0x80 != 0
    period := v.toNat / 16 % 8
    negate := v &&& 0x08 != 0
    shift := v.toNat % 8
    reload := true }

/-- The period that the unit aims at. -/
def target (s : Sweep) (channel : PulseChannel) (period : Nat) : Nat :=
  let change := period >>> s.shift
  if s.negate then
    match channel with
    | .one => period - (change + 1)
    | .two => period - change
  else period + change

/-- The divider after a half frame. -/
def clockDivider (s : Sweep) : Sweep :=
  if s.divider = 0 ∨ s.reload then { s with divider := s.period, reload := false }
  else { s with divider := s.divider - 1 }

end Sweep

/-- A pulse channel. -/
structure Pulse where
  /-- Which of the two it is. -/
  channel : PulseChannel
  /-- The pattern. -/
  duty : Fin 4 := 0
  /-- The step of the pattern. -/
  step : Fin 8 := 0
  /-- The ticks left of the step. -/
  timer : Nat := 0
  /-- One less than the ticks of a step. -/
  period : Nat := 0
  /-- The sweep unit. -/
  sweep : Sweep := {}
  /-- The envelope. -/
  envelope : Envelope := {}
  /-- The length counter. -/
  length : Length := {}
deriving DecidableEq, Repr, Inhabited

namespace Pulse

/-- The four patterns. -/
def patterns : Vector (Vector Bool 8) 4 := #v[
  #v[false, true, false, false, false, false, false, false],
  #v[false, true, true, false, false, false, false, false],
  #v[false, true, true, true, true, false, false, false],
  #v[true, false, false, true, true, true, true, true]]

/-- A period with its low byte replaced. -/
def withPeriodLow (period : Nat) (v : UInt8) : Nat := period / 256 % 8 * 256 + v.toNat

/-- A period with its high three bits replaced. -/
def withPeriodHigh (period : Nat) (v : UInt8) : Nat := v.toNat % 8 * 256 + period % 256

/-- A write to register `register % 4` of the channel. -/
def write (p : Pulse) (register : Nat) (v : UInt8) : Pulse :=
  match register % 4 with
  | 0 =>
    { p with
      duty := Bits.high2 v
      envelope := p.envelope.write v
      length := { p.length with halt := v &&& 0x20 != 0 } }
  | 1 => { p with sweep := p.sweep.write v }
  | 2 => { p with period := withPeriodLow p.period v }
  | _ =>
    { p with
      period := withPeriodHigh p.period v
      length := p.length.load v
      envelope := p.envelope.restart
      step := 0 }

/-- A tick of the timer. -/
def tick (p : Pulse) : Pulse :=
  if p.timer = 0 then { p with timer := p.period, step := p.step + 1 }
  else { p with timer := p.timer - 1 }

/-- The period that the sweep unit aims at. -/
def target (p : Pulse) : Nat := p.sweep.target p.channel p.period

/-- The period is too short, or the sweep unit aims too high, even if it is not enabled. -/
def muted (p : Pulse) : Bool := p.period < 8 || 0x7FF < p.target

/-- The sweep unit is about to change the period. -/
def sweeps (p : Pulse) : Bool :=
  p.sweep.divider == 0 && p.sweep.enabled && 0 < p.sweep.shift && !p.muted

/-- A half frame has passed for the sweep unit. -/
def clockSweep (p : Pulse) : Pulse :=
  { p with
    period := if p.sweeps then p.target else p.period
    sweep := p.sweep.clockDivider }

/-- The level of the channel. -/
def output (p : Pulse) : Nat :=
  if (patterns.get p.duty).get p.step && p.length.active && !p.muted then p.envelope.output else 0

end Pulse

end Nes.Apu
