import Nes.Proofs.Console.Reset
import Nes.Proofs.Console.Steps
import Nes.Proofs.System.Player
import Nes.Proofs.System.Silent

/-!
# A console whose processor has stopped

An instruction that stops the processor changes nothing but the processor's own mark that it has
stopped (`Console.halt`): the error leaves the step before any time passes.  From then on the
console is `Jammed`: interrupts are not even asked for, and every step without a reset fails with
the same error and changes nothing (`Jammed.step`).

`Console.jam_terminal` puts this together with what a run does about a failure.  Steps do not stop
the player of the console, and the end of a run stops it once (`Console.stops_after`,
`Console.stops_stop`).
-/

namespace Nes.Console

open Cpu Nes.System

variable {η : Type}

/-- The processor stands before a byte of memory that has stopped it. -/
structure Jammed (j : Cpu.Jam) (c : Console) : Prop where
  /-- The processor has stopped. -/
  halted : c.cpu.halted = true
  /-- It has stopped at this address. -/
  pc : c.cpu.pc = j.addr
  /-- The byte is still there. -/
  opcode : c.system.peek j.addr = j.opcode
  /-- The byte can be read without effect. -/
  memory : IsMemory j.addr

/-- The console after an instruction that stops the processor.  A trace gains a line. -/
def halt (c : Console) : Console :=
  { c with
    machine := ⟨{ c.cpu with halted := true }, c.system⟩
    trace := c.trace.map (·.push (Machine.traceLine c.cpu [c.system.peek c.cpu.pc])) }

theorem instruction_jam {c : Console} (hgoes : c.cpu.halted = false) (hpc : IsMemory c.cpu.pc)
    (hjam : (Instruction.ofOpcode (c.system.peek c.cpu.pc)).mnemonic = .jam) :
    c.instruction = (.error ⟨c.system.peek c.cpu.pc, c.cpu.pc⟩, c.halt) := by
  have hshows := c.system.shows_peek hpc
  obtain ⟨machine, tvSystem, remote, cycles, pauseCycles, trace⟩ := c
  cases trace with
  | none =>
    rw [instruction, Machine.step_jam hshows hgoes hjam]
    rfl
  | some lines =>
    rw [instruction, Machine.stepTraced_jam hshows hgoes hjam]
    rfl

namespace Jammed

variable {j : Cpu.Jam} {c : Console}

/-- Where the processor has stopped, it stops at every instruction, and no line is traced. -/
theorem instruction (hc : c.Jammed j) : c.instruction = (.error j, c) := by
  have hshows : Bus.Shows c.machine.bus c.machine.cpu.pc j.opcode := by
    have hpeek := c.system.shows_peek hc.memory
    rw [hc.opcode, ← hc.pc] at hpeek
    exact hpeek
  have hj : (⟨j.opcode, c.cpu.pc⟩ : Cpu.Jam) = j := by rw [hc.pc]
  have hhalted := hc.halted
  obtain ⟨machine, tvSystem, remote, cycles, pauseCycles, trace⟩ := c
  cases trace with
  | none =>
    rw [Console.instruction, Machine.step_halted hshows hhalted]
    exact congrArg (fun j => (Except.error j, _)) hj
  | some lines =>
    rw [Console.instruction, Machine.stepTraced_halted hshows hhalted]
    exact congrArg (fun j => (Except.error j, _)) hj

/-- A processor that has stopped is not interrupted, and the picture unit keeps its request. -/
theorem dispatch (hc : c.Jammed j) : c.dispatch = (0, c) := by
  rw [dispatch_eq, if_pos hc.halted]

/-- Until a reset is requested, a step fails and changes nothing. -/
theorem step (hc : c.Jammed j) (hreset : c.remote.resetRequested = false) (h : Host η)
    (hdebugger : h.debugger = none) (s : η) : c.step h s = (.error (.jam j), c, s) := by
  have happly := applyReset_eq_self hreset
  have hdispatch : c.applyReset.dispatch = (0, c.applyReset) := by
    rw [happly, hc.dispatch]
  rw [step_of_dispatch h s hdispatch hdebugger, happly, hc.instruction]

theorem after (hc : c.Jammed j) (hreset : c.remote.resetRequested = false) (h : Host η)
    (hdebugger : h.debugger = none) (s : η) (n : Nat) :
    c.after h s n = (c, s) ∧ (c.after h s n).1.step h s = (.error (.jam j), c, s) := by
  have hstep := hc.step hreset h hdebugger s
  rw [after_of_fixed hstep n]
  exact ⟨rfl, hstep⟩

end Jammed

theorem jammed_halt {c : Console} (hpc : IsMemory c.cpu.pc) :
    c.halt.Jammed ⟨c.system.peek c.cpu.pc, c.cpu.pc⟩ := ⟨rfl, rfl, rfl, hpc⟩

/-! ### The player -/

theorem stops_step (c : Console) (h : Host η) (s : η) :
    (c.step h s).2.1.system.apu.player.map Apu.Player.stops =
      c.system.apu.player.map Apu.Player.stops := by
  rw [← replay_deeds, System.stops_replay]

/-- Steps do not stop the player. -/
theorem stops_after (c : Console) (h : Host η) (s : η) (n : Nat) :
    (c.after h s n).1.system.apu.player.map Apu.Player.stops =
      c.system.apu.player.map Apu.Player.stops := by
  induction n generalizing c s with
  | zero => rfl
  | succ n ih => rw [after, ih, stops_step]

/-- Stopping the console stops the player. -/
theorem stops_stop (c : Console) :
    c.stop.system.apu.player.map Apu.Player.stops =
      (c.system.apu.player.map Apu.Player.stops).map (· + 1) := by
  rw [stop_eq, Option.map_map]
  exact Option.map_map ..

/-! ### A jam and the end of a run -/

/-- **A jam is atomic and final.**  A step that meets a jam fails with the opcode and its address,
and nothing has changed but that the processor has stopped.  From then on every step without a
reset fails in the same way and changes nothing, whatever interrupts are requested.  A run that
meets a failure, after any number of steps that succeed, ends with it: its host has received that
error once, and the console is stopped, which changes nothing else but what its player has counted.
In the whole run the player has been told once that there is no more sound.  In a later run the
console takes no step. -/
theorem jam_terminal {c : Console} (h : Host η) (s : η)
    (hreset : c.remote.resetRequested = false) (hdebugger : h.debugger = none)
    (hgoes : c.cpu.halted = false) (hnmi : c.system.ppu.nmi = false)
    (hirq : c.system.irq = true → c.cpu.status.interruptDisable = true)
    (hpc : c.cpu.pc < 0x2000 ∨ 0x4020 ≤ c.cpu.pc)
    (hjam : (Instruction.ofOpcode (c.system.peek c.cpu.pc)).mnemonic = .jam) :
    let j : Cpu.Jam := ⟨c.system.peek c.cpu.pc, c.cpu.pc⟩
    c.step h s = (.error (.jam j), c.halt, s) ∧
    (∀ n, c.halt.after h s n = (c.halt, s) ∧
      (c.halt.after h s n).1.step h s = (.error (.jam j), c.halt, s)) ∧
    (∀ d : Console, d.cpu = c.halt.cpu → d.system.peek d.cpu.pc = j.opcode →
      d.remote.resetRequested = false →
      ∀ {θ : Type} (h : Host θ), h.debugger = none → ∀ (t : θ) (n : Nat),
        d.after h t n = (d, t) ∧ (d.after h t n).1.step h t = (.error (.jam j), d, t)) ∧
    (∀ {θ : Type} (h : Host θ) (d : Console) (t : θ) (n : Nat) (e : Error) (d' : Console) (t' : θ),
      d.Goes h t n → (d.after h t n).1.remote.stopped = false →
      (d.after h t n).1.step h (d.after h t n).2 = (.error e, d', t') →
      (∀ fuel > n, ∀ onError : Error → θ → θ,
        d.run { h with onError } fuel t = (some (.error e), d'.stop, onError e t')) ∧
      d'.stop = { d' with
        machine := ⟨d'.cpu, { d'.system with apu := { d'.system.apu with
          player := d'.system.apu.player.map fun p => { p with stops := p.stops + 1 } } }⟩
        remote := { d'.remote with stopped := true } } ∧
      d'.stop.system.apu.player.map Apu.Player.stops =
        d.system.apu.player.map (·.stops + 1) ∧
      ∀ {ζ : Type} (h : Host ζ) (fuel : Nat) (z : ζ),
        d'.stop.run h fuel z = (some (.ok ()), d'.stop.stop, z)) := by
  intro j
  refine ⟨?_, (jammed_halt hpc).after hreset h hdebugger s, ?_, ?_⟩
  · have happly := applyReset_eq_self hreset
    have hdispatch : c.applyReset.dispatch = (0, c.applyReset) := by
      rw [happly, dispatch_of_masked hnmi hirq]
    rw [step_of_dispatch h s hdispatch hdebugger, happly, instruction_jam hgoes hpc hjam]
  · intro d hcpu hpeek hno θ h' hdebugger' t n
    have hd : d.Jammed j := by
      refine ⟨by rw [hcpu]; rfl, by rw [hcpu]; rfl, ?_, hpc⟩
      rw [hcpu] at hpeek
      exact hpeek
    exact hd.after hno h' hdebugger' t n
  · intro θ h' d t n e d' t' hsteps hstopped hfails
    refine ⟨fun fuel hfuel onError => run_reports hsteps hstopped hfails hfuel onError,
      stop_eq, ?_, fun h'' fuel z => run_of_stopped rfl fuel⟩
    have hkept := (stops_step (d.after h' t n).1 h' (d.after h' t n).2).trans (stops_after d h' t n)
    rw [hfails] at hkept
    rw [stops_stop, hkept, Option.map_map]
    rfl

/-- With a program whose first instruction stops the processor, also while the picture unit requests
an interrupt later on; the player that was attached has been stopped once. -/
theorem jam_terminal_attached :
    ∃ cart c₀ c, Cartridge.ofBytes jammingImage = .ok cart ∧ powerOn cart {} = .ok c₀ ∧
      c = c₀.attachPlayer ∧
      c.step Host.silent () = (.error (.jam ⟨0xB2, 0x8000⟩), c.halt, ()) ∧
      (∃ d : Console, d.cpu = c.halt.cpu ∧ d.system.ppu.nmi = true ∧
        ∀ n, d.after Host.silent () n = (d, ())) ∧
      c.run Host.silent 1 () = (some (.error (.jam ⟨0xB2, 0x8000⟩)), c.halt.stop, ()) ∧
      c.halt.stop.system.apu.player.map Apu.Player.stops = some 1 := by
  have hpower : ∃ cart c₀ c, Cartridge.ofBytes jammingImage = .ok cart ∧
      powerOn cart {} = .ok c₀ ∧ c = c₀.attachPlayer ∧
      c.remote.resetRequested = false ∧ c.cpu.halted = false ∧ c.system.ppu.nmi = false ∧
      c.system.irq = false ∧ c.remote.stopped = false ∧ c.cpu.pc = 0x8000 ∧
      c.system.peek 0x8000 = 0xB2 ∧ c.system.apu.player = some {} :=
    ⟨_, _, _, rfl, rfl, rfl, rfl, rfl, rfl, rfl, rfl, rfl, rfl, rfl⟩
  obtain ⟨cart, c₀, c, hcart, h₀, hc, hreset, hgoes, hnmi, hirq, hstopped, hpc, hpeek, hplayer⟩ :=
    hpower
  obtain ⟨hstep, -, hlater, hrun⟩ := jam_terminal (c := c) Host.silent () hreset rfl hgoes hnmi
    (fun hrequested => by rw [hirq] at hrequested; cases hrequested)
    (by rw [hpc]; decide) (by rw [hpc, hpeek]; decide)
  rw [hpc, hpeek] at hstep
  let ppu : Ppu := { c.system.ppu with nmi := true }
  let d : Console := { c.halt with machine := ⟨c.halt.cpu, { c.system with ppu }⟩ }
  have hd : ∀ n, d.after Host.silent () n = (d, ()) := fun n =>
    (hlater d rfl rfl hreset Host.silent rfl () n).1
  obtain ⟨hends, -, hstops, -⟩ := hrun Host.silent c () 0 _ c.halt () trivial hstopped hstep
  rw [hplayer] at hstops
  exact ⟨cart, c₀, c, hcart, h₀, hc, hstep, ⟨d, rfl, rfl, hd⟩, hends 1 Nat.one_pos fun _ s => s,
    hstops⟩

end Nes.Console
