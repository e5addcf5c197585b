import Nes.Apu.Dmc
import Nes.Apu.FrameCounter
import Nes.Apu.Mixer
import Nes.Apu.Noise
import Nes.Apu.Pulse
import Nes.Apu.Triangle

/-!
# The sound unit

`Apu` holds five channels, the frame counter that clocks their envelopes and counters, and the clock
that takes samples of the mix at the rate of a player.  `Apu.tick` lets one cycle of the processor
pass.
-/

namespace Nes

/-- What a player has been given. -/
structure Apu.Player where
  /-- The samples, the oldest first. -/
  samples : Array Float32 := #[]
  /-- How often it was told that there is no more sound. -/
  stops : Nat := 0
  /-- How often it was told to drop what it has not played. -/
  resets : Nat := 0
deriving Inhabited

/-- The sound unit. -/
structure Apu where
  /-- The first pulse channel. -/
  pulse1 : Apu.Pulse := { channel := .one }
  /-- The second pulse channel. -/
  pulse2 : Apu.Pulse := { channel := .two }
  /-- The triangle channel. -/
  triangle : Apu.Triangle := {}
  /-- The noise channel. -/
  noise : Apu.Noise := {}
  /-- The sample channel. -/
  dmc : Apu.Dmc := {}
  /-- The frame counter. -/
  frame : Apu.FrameCounter := {}
  /-- The next cycle is one of those at which the timers of the pulse channels run. -/
  oddCycle : Bool := false
  /-- The cycles between two samples. -/
  cyclesPerSample : Float
  /-- The cycles since the last sample. -/
  phase : Float := 0
  /-- The player, if there is one. -/
  player : Option Apu.Player := none
deriving Inhabited

namespace Apu

/-- The sound unit at power-on, for a number of samples and of cycles per second. -/
def powerOn (sampleRate : Nat) (cpuHz : Float) : Apu :=
  { cyclesPerSample := cpuHz / Float.ofNat (max sampleRate 1) }

/-- Attaches a new player. -/
def attachPlayer (a : Apu) : Apu := { a with player := some {} }

/-- The end of a quarter frame, for envelopes and the linear counter. -/
def clockQuarter (a : Apu) : Apu :=
  { a with
    pulse1 := { a.pulse1 with envelope := a.pulse1.envelope.clock }
    pulse2 := { a.pulse2 with envelope := a.pulse2.envelope.clock }
    noise := { a.noise with envelope := a.noise.envelope.clock }
    triangle := a.triangle.clockLinear }

/-- The end of a half frame, for length counters and sweep units. -/
def clockHalf (a : Apu) : Apu :=
  { a with
    pulse1 := { a.pulse1 with length := a.pulse1.length.clock }.clockSweep
    pulse2 := { a.pulse2 with length := a.pulse2.length.clock }.clockSweep
    triangle := { a.triangle with length := a.triangle.length.clock }
    noise := { a.noise with length := a.noise.length.clock } }

/-- Enables and disables channels by the bits of a byte. -/
def writeEnables (a : Apu) (v : UInt8) : Apu :=
  { a with
    pulse1 := { a.pulse1 with length := a.pulse1.length.setEnabled (v &&& 0x01 != 0) }
    pulse2 := { a.pulse2 with length := a.pulse2.length.setEnabled (v &&& 0x02 != 0) }
    triangle := { a.triangle with length := a.triangle.length.setEnabled (v &&& 0x04 != 0) }
    noise := { a.noise with length := a.noise.length.setEnabled (v &&& 0x08 != 0) }
    dmc := { a.dmc with irq := false }.setEnabled (v &&& 0x10 != 0) }

/-- Starts a sequence of the frame counter.  One of five steps starts with the end of a half
frame. -/
def writeFrame (a : Apu) (v : UInt8) : Apu :=
  let a := { a with frame := a.frame.write v }
  if a.frame.fiveStep then a.clockQuarter.clockHalf else a

/-- A write to a register from `$4000` to `$4017`. -/
def write (a : Apu) (addr : UInt16) (v : UInt8) : Apu :=
  let register := addr.toNat
  if 0x4000 ≤ register ∧ register ≤ 0x4003 then { a with pulse1 := a.pulse1.write register v }
  else if 0x4004 ≤ register ∧ register ≤ 0x4007 then { a with pulse2 := a.pulse2.write register v }
  else if 0x4008 ≤ register ∧ register ≤ 0x400B then
    { a with triangle := a.triangle.write register v }
  else if 0x400C ≤ register ∧ register ≤ 0x400F then { a with noise := a.noise.write register v }
  else if 0x4010 ≤ register ∧ register ≤ 0x4013 then { a with dmc := a.dmc.write register v }
  else if register = 0x4015 then a.writeEnables v
  else if register = 0x4017 then a.writeFrame v
  else a

/-- The state of the channels and of the interrupts, a bit each. -/
def statusByte (a : Apu) : UInt8 :=
  (if a.pulse1.length.active then 0x01 else 0) ||| (if a.pulse2.length.active then 0x02 else 0) |||
  (if a.triangle.length.active then 0x04 else 0) ||| (if a.noise.length.active then 0x08 else 0) |||
  (if a.dmc.active then 0x10 else 0) ||| (if a.frame.irq then 0x40 else 0) |||
  (if a.dmc.irq then 0x80 else 0)

/-- Reads the state, which withdraws the interrupt request of the frame counter. -/
def readStatus (a : Apu) : UInt8 × Apu :=
  (a.statusByte, { a with frame := { a.frame with irq := false } })

/-- An interrupt is requested. -/
def irq (a : Apu) : Bool := a.frame.irq || a.dmc.irq

/-- The sample channel receives a byte. -/
def feed (a : Apu) (v : UInt8) : Apu := { a with dmc := a.dmc.feed v }

/-- The output now. -/
def mix (a : Apu) : Float32 :=
  Mixer.mix a.pulse1.output a.pulse2.output a.triangle.output a.noise.output a.dmc.level

/-- A cycle for the frame counter and what it clocks. -/
def tickFrame (a : Apu) : Apu :=
  let fiveStep := a.frame.fiveStep
  let cycle := a.frame.cycle + 1
  let a := { a with frame := a.frame.tick }
  let a := if FrameCounter.endsQuarter fiveStep cycle then a.clockQuarter else a
  if FrameCounter.endsHalf fiveStep cycle then a.clockHalf else a

/-- A cycle for the timers of the channels; those of the pulse channels run at every second one. -/
def tickChannels (a : Apu) : Apu :=
  let a :=
    if a.oddCycle then { a with pulse1 := a.pulse1.tick, pulse2 := a.pulse2.tick } else a
  { a with
    oddCycle := !a.oddCycle
    triangle := a.triangle.tick
    noise := a.noise.tick
    dmc := a.dmc.tick }

/-- The player receives a sample. -/
def emit (a : Apu) (sample : Float32) : Apu :=
  { a with player := a.player.map fun p => { p with samples := p.samples.push sample } }

/-- A cycle for the clock that takes samples. -/
def tickSample (a : Apu) : Apu :=
  let phase := a.phase + 1
  if phase ≥ a.cyclesPerSample then
    let a := { a with phase := phase - a.cyclesPerSample }
    a.emit a.mix
  else { a with phase }

/-- A cycle of the processor. -/
def tick (a : Apu) : Apu := a.tickFrame.tickChannels.tickSample

/-- After a reset: all channels are disabled and the frame counter starts over. -/
def reset (a : Apu) : Apu :=
  let a := a.writeEnables 0
  { a with
    frame := { a.frame with cycle := 0, irq := false }
    phase := 0
    player := a.player.map fun p => { p with resets := p.resets + 1 } }

/-- The player is told that there is no more sound. -/
def stop (a : Apu) : Apu :=
  { a with player := a.player.map fun p => { p with stops := p.stops + 1 } }

/-- The samples that the player got, and the unit without them. -/
def takeSamples (a : Apu) : Array Float32 × Apu :=
  ((a.player.map (·.samples)).getD #[],
    { a with player := a.player.map fun p => { p with samples := #[] } })

end Apu

end Nes
