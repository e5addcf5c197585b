import Nes.Apu.Length
import Nes.Apu.Pulse

/-!
# The triangle channel

The channel steps through 32 levels, down from 15 and up again, as long as its length counter and
its linear counter let it.
-/

namespace Nes.Apu

/-- The triangle channel. -/
structure Triangle where
  /-- The counters stand still. -/
  control : Bool := false
  /-- Where the linear counter starts. -/
  linearLoad : Nat := 0
  /-- The quarter frames left. -/
  linear : Nat := 0
  /-- The linear counter starts over at the next clock. -/
  linearReload : Bool := false
  /-- The ticks left of the step. -/
  timer : Nat := 0
  /-- One less than the ticks of a step. -/
  period : Nat := 0
  /-- The step. -/
  step : Fin 32 := 0
  /-- The length counter. -/
  length : Length := {}
deriving DecidableEq, Repr, Inhabited

namespace Triangle

/-- A write to register `register % 4` of the channel. -/
def write (t : Triangle) (register : Nat) (v : UInt8) : Triangle :=
  match register % 4 with
  | 0 =>
    let control := v &&& 0x80 != 0
    { t with control, length := { t.length with halt := control }, linearLoad := v.toNat % 128 }
  | 1 => t
  | 2 => { t with period := Pulse.withPeriodLow t.period v }
  | _ =>
    { t with
      period := Pulse.withPeriodHigh t.period v
      length := t.length.load v
      linearReload := true }

/-- Both counters let the channel go on. -/
def running (t : Triangle) : Bool := t.length.active && 0 < t.linear

/-- A tick of the timer. -/
def tick (t : Triangle) : Triangle :=
  if t.timer = 0 then
    { t with timer := t.period, step := if t.running then t.step + 1 else t.step }
  else { t with timer := t.timer - 1 }

/-- A quarter frame has passed for the linear counter. -/
def clockLinear (t : Triangle) : Triangle :=
  { t with
    linear := if t.linearReload then t.linearLoad else t.linear - 1
    linearReload := t.linearReload && t.control }

/-- The level of a step. -/
def levelOf (step : Fin 32) : Nat := if step.val < 16 then 15 - step.val else step.val - 16

/-- The level of the channel; periods too short to be heard are silent. -/
def output (t : Triangle) : Nat := if t.running && 2 ≤ t.period then levelOf t.step else 0

end Triangle

end Nes.Apu
