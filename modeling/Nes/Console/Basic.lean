import Nes.Console.Remote
import Nes.Config
import Nes.Cpu.Machine
import Nes.Error
import Nes.Ppu.PatternTable
import Nes.System

/-!
# The console

A `Console` is a processor on its system, together with a remote control.  `Console.powerOn` builds
one for a cartridge.  Between two instructions the console may be reset (`Console.applyReset`) or
interrupted (`Console.dispatch`); otherwise it executes one instruction (`Console.instruction`).
After either it lets the time pass that this took (`Console.elapse`).
-/

namespace Nes

/-- A console. -/
structure Console where
  /-- The processor and its system. -/
  machine : Machine System
  /-- The television system. -/
  tvSystem : Cartridge.TvSystem
  /-- The remote control. -/
  remote : Console.Remote
  /-- The cycles since the last reset. -/
  cycles : Nat := 0
  /-- The cycles up to the last pause. -/
  pauseCycles : Nat := 0
  /-- The lines of the trace, if instructions are traced. -/
  trace : Option (Array String) := none

namespace Console

/-- A console with a cartridge. -/
def powerOn (cart : Cartridge) (config : Config) : Except Error Console := do
  if let .error e := config.validate then throw (.config e)
  let cart := { cart with mirroring := config.mirroring.getD cart.mirroring }
  let tvSystem := config.region.getD cart.tvSystem
  let some board := Board.ofCartridge cart | throw (.unsupportedMapper cart.mapperId)
  let apu := Apu.powerOn config.sampleRate (Float.ofNat tvSystem.cpuHz)
  let machine : Machine System := ⟨Cpu.powerOn, { apu, board }⟩
  return {
    machine := machine.reset
    tvSystem
    remote := { speed := config.frameRate tvSystem } }

/-- All but the processor. -/
def system (c : Console) : System := c.machine.bus

/-- The registers of the processor. -/
def cpu (c : Console) : Cpu := c.machine.cpu

/-- Changes the system. -/
@[inline] def withSystem {α : Type} (c : Console) (f : System → α × System) : α × Console :=
  let ⟨⟨cpu, bus⟩, tvSystem, remote, cycles, pauseCycles, trace⟩ := c
  let (v, bus) := f bus
  (v, ⟨⟨cpu, bus⟩, tvSystem, remote, cycles, pauseCycles, trace⟩)

/-- The cycles since the last pause. -/
def cyclesSincePause (c : Console) : Nat := c.cycles - c.pauseCycles

/-- Attaches a new player. -/
def attachPlayer (c : Console) : Console :=
  (c.withSystem fun s => ((), { s with apu := s.apu.attachPlayer })).2

/-- The reset button: everything but memory starts over. -/
def softReset (c : Console) : Console :=
  let ⟨cpu, bus⟩ := c.machine
  { c with machine := Machine.reset ⟨cpu, bus.reset⟩, cycles := 0, pauseCycles := 0 }

/-- Carries out a requested reset. -/
def applyReset (c : Console) : Console :=
  if c.remote.resetRequested then
    { c with remote := { c.remote with resetRequested := false } }.softReset
  else c

/-- Enters the handler of an interrupt, if there is one to enter, and tells the cycles used.  A
processor that has stopped is not interrupted. -/
def dispatch (c : Console) : Nat × Console :=
  if c.machine.cpu.halted then (0, c) else
    let ⟨⟨cpu, bus⟩, tvSystem, remote, cycles, pauseCycles, trace⟩ := c
    let (nmi, bus) := bus.pollNmi
    let machine : Machine System := ⟨cpu, bus⟩
    let (used, machine) :=
      if nmi then machine.interrupt .nmi
      else if machine.bus.irq then machine.interrupt .irq
      else (0, machine)
    (used, ⟨machine, tvSystem, remote, cycles, pauseCycles, trace⟩)

/-- Executes one instruction, and traces it if instructions are traced. -/
def instruction (c : Console) : Except Cpu.Jam Nat × Console :=
  let ⟨machine, tvSystem, remote, cycles, pauseCycles, trace⟩ := c
  match trace with
  | none =>
    let (result, machine) := machine.step
    (result, ⟨machine, tvSystem, remote, cycles, pauseCycles, none⟩)
  | some lines =>
    let ((result, line), machine) := machine.stepTraced
    let lines := match line with
      | some line => lines.push line
      | none => lines
    (result, ⟨machine, tvSystem, remote, cycles, pauseCycles, some lines⟩)

/-- Lets the cycles pass that the processor has used and those that it has to wait.  Tells how many
these were. -/
def elapse (c : Console) (used : Nat) : Nat × Console :=
  let ⟨⟨cpu, bus⟩, tvSystem, remote, cycles, pauseCycles, trace⟩ := c
  let (waited, bus) := (bus.tick used).drain
  let total := used + waited
  (total, ⟨⟨cpu, bus⟩, tvSystem, remote, cycles + total, pauseCycles, trace⟩)

/-- Hands the buttons of the remote control on to the controllers. -/
def applyButtons (c : Console) : Console :=
  let remote := c.remote
  (c.withSystem fun s => ((), s.setPads remote.pad1 remote.pad2)).2

/-- Stops the console and tells the player. -/
def stop (c : Console) : Console :=
  ({ c with remote := c.remote.stop }.withSystem fun s => ((), { s with apu := s.apu.stop })).2

end Console

end Nes
