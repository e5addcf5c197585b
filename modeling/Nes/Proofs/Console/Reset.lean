import Nes.Proofs.Console.Boundary
import Nes.Proofs.System.Board

/-!
# A reset starts the program again

`Session c₀ c` says that the console `c` comes from the console `c₀` by steps, with any hosts, and
by what is done from outside between two of them.  Every reachable console is one of a session from
power-on (`session_of_reachable`).

Whatever a program does in a session, its board is the one from power-on after some history, so that
a reset board shows the address of the program where it was at power-on
(`Session.pc_applyReset`).  A reset also withdraws every request for an interrupt.  Therefore the
step after a request enters no handler and executes the instruction at that address, from the
registers of power-on, while all memory stays as it was (`Session.restarts`).
-/

namespace Nes

/-- The memories are the same, and the beam is at the same place. -/
structure System.SameMemory (s s' : System) : Prop where
  /-- The memory of the processor. -/
  ram : s'.ram = s.ram
  /-- The nametables. -/
  vram : s'.ppu.vram = s.ppu.vram
  /-- Sprite memory. -/
  sprites : s'.ppu.sprites = s.ppu.sprites
  /-- Palette memory. -/
  palette : s'.ppu.palette = s.ppu.palette
  /-- Work memory. -/
  prgRam : s'.board.prgRam = s.board.prgRam
  /-- The patterns. -/
  chr : s'.board.chr = s.board.chr
  /-- The line of the beam. -/
  line : s'.ppu.beam.line = s.ppu.beam.line
  /-- The dot of the beam. -/
  dot : s'.ppu.beam.dot = s.ppu.beam.dot

/-- The system is reset. -/
def Deed.isReset : Deed → Bool
  | reset => true
  | _ => false

namespace System

theorem sameMemory_reset (s : System) : s.SameMemory s.reset :=
  ⟨rfl, rfl, rfl, rfl, rfl, rfl, rfl, rfl⟩

theorem irq_reset (s : System) : s.reset.irq = false := by
  have hboard : s.board.reset.irq = false := by
    unfold Board.irq Board.reset
    cases s.board.chip <;> rfl
  have hirq : s.reset.irq = s.board.reset.irq := rfl
  rw [hirq, hboard]

end System

namespace Console

open Nes.System

variable {η : Type}

/-- A console that comes from another one by steps and by what is done between them. -/
inductive Session (c₀ : Console) : Console → Prop
  /-- The session begins. -/
  | start : Session c₀ c₀
  /-- The console takes a step. -/
  | step {c : Console} (hc : Session c₀ c) {η : Type} (h : Host η) (s : η) :
    Session c₀ (c.step h s).2.1
  /-- Something is done to it between two steps. -/
  | handled {c c' : Console} (hc : Session c₀ c) (h : Handled c c') : Session c₀ c'

/-- Every console that power-on, steps and a user bring about is one of a session. -/
theorem session_of_reachable {c : Console} (hc : Reachable c) :
    ∃ cart config c₀, powerOn cart config = .ok c₀ ∧ Session c₀ c := by
  induction hc with
  | powerOn h => exact ⟨_, _, _, h, .start⟩
  | step _ h s ih =>
    obtain ⟨cart, config, c₀, h₀, hc⟩ := ih
    exact ⟨cart, config, c₀, h₀, hc.step h s⟩
  | handled _ h ih =>
    obtain ⟨cart, config, c₀, h₀, hc⟩ := ih
    exact ⟨cart, config, c₀, h₀, hc.handled h⟩

/-- The board of a session has a history. -/
theorem Session.board {c₀ c : Console} (hc : Session c₀ c) :
    ∃ ops, c.system.board = c₀.system.board.run ops := by
  induction hc with
  | start => exact ⟨[], rfl⟩
  | @step c _ _ h s ih =>
    obtain ⟨ops, hops⟩ := ih
    obtain ⟨ops', hops'⟩ := c.system.board_replay (c.deeds h s)
    exact ⟨ops ++ ops', by rw [← replay_deeds, hops', hops, Board.run_append]⟩
  | handled _ h ih =>
    obtain ⟨ops, hops⟩ := ih
    obtain ⟨_, _, player, notices, hsystem⟩ := h.cases
    exact ⟨ops, by rw [hsystem, ← hops]⟩

/-! ### What a reset does -/

theorem applyReset_eq {c : Console} (hreset : c.remote.resetRequested = true) :
    c.applyReset = { c with
      machine := ⟨{ Cpu.powerOn with
        pc := wordOf (c.system.board.reset.prgRead 0xFFFC) (c.system.board.reset.prgRead 0xFFFD)
        cycles := 7 }, c.system.reset⟩
      remote := { c.remote with resetRequested := false }
      cycles := 0
      pauseCycles := 0 } := by
  rw [applyReset, if_pos hreset]
  rfl

/-- At power-on the program starts where the board says, and a reset of the board would not change
that. -/
theorem pc_powerOn {cart : Cartridge} {config : Config} {c₀ : Console}
    (h₀ : powerOn cart config = .ok c₀) :
    c₀.cpu.pc = wordOf (c₀.system.board.prgRead 0xFFFC) (c₀.system.board.prgRead 0xFFFD) ∧
      wordOf (c₀.system.board.reset.prgRead 0xFFFC) (c₀.system.board.reset.prgRead 0xFFFD) =
        c₀.cpu.pc := by
  obtain ⟨rate, hz, board, hm, -, cart', hboard⟩ := powerOn_cases h₀
  have hsystem : c₀.system.board = board := by
    rw [system, hm]
    rfl
  have hpc : c₀.cpu.pc = wordOf (board.prgRead 0xFFFC) (board.prgRead 0xFFFD) := by
    rw [cpu, hm]
    rfl
  rw [hsystem, hpc, Board.prgRead_reset_ofCartridge hboard (by decide),
    Board.prgRead_reset_ofCartridge hboard (by decide)]
  exact ⟨rfl, rfl⟩

/-- The program starts where it did at power-on. -/
theorem Session.pc_applyReset {cart : Cartridge} {config : Config} {c₀ c : Console}
    (h₀ : powerOn cart config = .ok c₀) (hc : Session c₀ c) :
    wordOf (c.system.board.reset.prgRead 0xFFFC) (c.system.board.reset.prgRead 0xFFFD) =
      c₀.cpu.pc := by
  obtain ⟨ops, hops⟩ := hc.board
  rw [← (pc_powerOn h₀).2, hops, Board.prgRead_reset_run _ _ (by decide),
    Board.prgRead_reset_run _ _ (by decide)]

/-- Without a request there is no interrupt. -/
theorem dispatch_of_quiet {c : Console} (hgoes : c.cpu.halted = false)
    (hnmi : c.system.ppu.nmi = false) (hirq : c.system.irq = false) : c.dispatch = (0, c) := by
  have hpolled := polled_eq hnmi
  have hserved : c.served = (0, c.polled) := by
    rw [served, hnmi, if_neg Bool.false_ne_true, hpolled]
    exact if_neg (Bool.not_eq_true _ ▸ hirq)
  rw [dispatch_eq, hgoes, if_neg Bool.false_ne_true, hserved, hpolled]

theorem isReset_of_isAccess {d : Deed} (h : d.isAccess = true) : d.isReset = false := by
  cases d <;> first | rfl | exact absurd h (by decide)

theorem isReset_of_isPassing {d : Deed} (h : d.isPassing = true) : d.isReset = false := by
  cases d <;> first | rfl | exact absurd h (by decide)

theorem countP_isReset_eq_zero {ds : List Deed} (h : ∀ d ∈ ds, d.isReset = false) :
    ds.countP Deed.isReset = 0 :=
  List.countP_eq_zero.2 fun d hd => by simp [h d hd]

variable (h : Host η) (s : η)

/-- A step resets the system once if a reset is requested, however often, and not otherwise. -/
theorem countP_isReset_deeds (c : Console) :
    (c.deeds h s).countP Deed.isReset = c.remote.resetRequested.toNat := by
  have hreset : c.resetDeeds.countP Deed.isReset = c.remote.resetRequested.toNat := by
    unfold resetDeeds
    split
    · next hreset =>
      have hquiet := isQuiet_resetAccesses ⟨c.cpu, c.system.reset⟩
      rw [hreset, List.countP_cons_of_pos (show Deed.reset.isReset = true from rfl),
        countP_isReset_eq_zero fun d hd => isReset_of_isAccess (hquiet d hd).isAccess]
      rfl
    · next hreset =>
      rw [Bool.eq_false_iff.2 hreset]
      rfl
  have hpoll : c.applyReset.pollDeeds.countP Deed.isReset = 0 := by
    refine countP_isReset_eq_zero fun d hd => ?_
    rcases mem_pollDeeds hd with rfl | rfl
    · rfl
    · rfl
  have hrested {ds : List Deed} {c' : Console} (hr : Rested c.applyReset ds c') :
      ds.countP Deed.isReset = 0 :=
    countP_isReset_eq_zero fun d hd => isReset_of_isAccess (hr.quiet d hd).isAccess
  rcases c.step_cases h s with ⟨ds, used, c', s', hw, _, hds⟩ | ⟨ds, j, c', s', hr, _, _, hds⟩ |
    ⟨ds, c', s', hr, _, _, _, hds⟩
  · have hworked : ds.countP Deed.isReset = 0 :=
      countP_isReset_eq_zero fun d hd => isReset_of_isAccess (hw.accessing.isAccess d hd)
    have hcomplete : (c'.completeDeeds h s' used).countP Deed.isReset = 0 :=
      countP_isReset_eq_zero fun d hd =>
        isReset_of_isPassing ((c'.passes_completeDeeds h s' used).2.2 d hd)
    rw [hds, List.countP_append, List.countP_append, List.countP_append, hreset, hpoll, hworked,
      hcomplete, Nat.add_zero]
  · rw [hds, List.countP_append, List.countP_append, hreset, hpoll, hrested hr, Nat.add_zero]
  · rw [hds, List.countP_append, List.countP_append, hreset, hpoll, hrested hr, Nat.add_zero]

/-- After a step that starts from a count of zero, the count is the result. -/
theorem cycles_step {c : Console} (hcycles : c.applyReset.cycles = 0) :
    (∀ n, (c.step h s).1 = .ok n → (c.step h s).2.1.cycles = n) ∧
    ∀ j, (c.step h s).1 = .error (.jam j) → (c.step h s).2.1.cycles = 0 := by
  rcases c.step_cases h s with ⟨ds, used, c', s', hw, hstep, _⟩ | ⟨ds, j, c', s', hr, hstep, _⟩ |
    ⟨ds, c', s', hr, hstep, _⟩
  · obtain ⟨remote, hc, hresult⟩ := c'.complete_cases h s' used
    rw [hstep, hc]
    rcases hresult with hok | ⟨text, herror⟩
    · rw [hok]
      refine ⟨fun n hn => ?_, fun j hj => by cases hj⟩
      cases hn
      show c'.cycles + _ = _
      rw [hw.cycles, hcycles, Nat.zero_add]
    · rw [herror]
      exact ⟨fun n hn => (by cases hn), fun j hj => (by cases hj)⟩
  · rw [hstep]
    exact ⟨fun n hn => (by cases hn), fun _ _ => hr.cycles.trans hcycles⟩
  · rw [hstep]
    refine ⟨fun n hn => ?_, fun j hj => by cases hj⟩
    cases hn
    exact hr.cycles.trans hcycles

/-- A host that hands pictures on requests no reset. -/
theorem resetRequested_deliver {c : Console}
    (hkeeps : ∀ picture remote s,
      (h.onFrame picture remote s).2.1.resetRequested = remote.resetRequested) :
    (c.deliver h s).2.1.remote.resetRequested = c.remote.resetRequested := by
  have hkept := hkeeps c.system.ppu.front c.remote s
  rw [deliver_eq]
  split
  · generalize h.onFrame c.system.ppu.front c.remote s = x at hkept ⊢
    obtain ⟨_ | _, remote, s'⟩ := x
    · exact hkept
    · exact hkept
  · rfl

theorem resetRequested_step {c : Console} (hdispatch : c.applyReset.dispatch = (0, c.applyReset))
    (hdebugger : h.debugger = none)
    (hkeeps : ∀ picture remote s,
      (h.onFrame picture remote s).2.1.resetRequested = remote.resetRequested) :
    (c.step h s).2.1.remote.resetRequested = false := by
  obtain ⟨trace, hinstruction⟩ := c.applyReset.instruction_eq
  have hno := c.resetRequested_applyReset
  rw [step_of_dispatch h s hdispatch hdebugger, hinstruction]
  cases c.applyReset.executed.1 with
  | error j => exact hno
  | ok used =>
    let c' : Console := { c.applyReset with machine := c.applyReset.executed.2, trace }
    have hdelivered := resetRequested_deliver h s hkeeps (c := (c'.elapse used).2)
    exact hdelivered.trans hno

/-- **A reset starts the program again.**  In every session of a cartridge, the step after one or
more requests for a reset carries out one reset; before anything else happens the processor has the
registers of power-on and the address that the board gave then, nothing is due and nothing requests
an interrupt, and all memory and the beam are as before the step.  Without a debugger the step then
executes the instruction at that address, and the count of cycles is that of this step, or zero if
the processor met a jam.  Requests that were made together are answered together. -/
theorem Session.restarts {cart : Cartridge} {config : Config} {c₀ c : Console}
    (h₀ : powerOn cart config = .ok c₀) (hc : Session c₀ c)
    (hreset : c.remote.resetRequested = true) (hdebugger : h.debugger = none) :
    c₀.cpu.pc = wordOf (c₀.system.board.prgRead 0xFFFC) (c₀.system.board.prgRead 0xFFFD) ∧
    (c.applyReset.cpu = { Cpu.powerOn with pc := c₀.cpu.pc, cycles := 7 } ∧
      c.applyReset.cpu.status.toByte = 0x24 ∧ c.applyReset.system.stall = 0 ∧
      c.applyReset.system.irq = false ∧ c.applyReset.system.ppu.nmi = false) ∧
    c.system.SameMemory c.applyReset.system ∧
    c.applyReset.dispatch = (0, c.applyReset) ∧
    (c.step h s = match c.applyReset.instruction with
      | (.error j, c') => (.error (.jam j), c', s)
      | (.ok used, c') => c'.complete h used s) ∧
    (∀ n, (c.step h s).1 = .ok n → (c.step h s).2.1.cycles = n) ∧
    (∀ j, (c.step h s).1 = .error (.jam j) → (c.step h s).2.1.cycles = 0) ∧
    (c.deeds h s).countP Deed.isReset = 1 ∧
    (∀ c' : Console, c'.remote.resetRequested = false →
      (c'.deeds h s).countP Deed.isReset = 0) ∧
    (∀ n, Nat.repeat Remote.reset n c.remote.reset = c.remote.reset) ∧
    ((∀ picture remote s,
        (h.onFrame picture remote s).2.1.resetRequested = remote.resetRequested) →
      (c.step h s).2.1.remote.resetRequested = false) := by
  have happly := applyReset_eq hreset
  have hpc := hc.pc_applyReset h₀
  have hcpu : c.applyReset.cpu = { Cpu.powerOn with pc := c₀.cpu.pc, cycles := 7 } := by
    rw [← hpc, happly]
    rfl
  have hsystem : c.applyReset.system = c.system.reset := by
    rw [happly]
    rfl
  have hstatus : c.applyReset.cpu.status.toByte = 0x24 := by
    rw [hcpu]
    show Cpu.Status.powerOn.toByte = 0x24
    decide
  have hirq : c.applyReset.system.irq = false := by rw [hsystem, irq_reset]
  have hnmi : c.applyReset.system.ppu.nmi = false := by rw [hsystem]; rfl
  have hdispatch : c.applyReset.dispatch = (0, c.applyReset) :=
    dispatch_of_quiet (by rw [hcpu]; rfl) hnmi hirq
  obtain ⟨hok, hjam⟩ := cycles_step h s (c := c) (by rw [happly])
  refine ⟨(pc_powerOn h₀).1, ⟨hcpu, hstatus, by rw [hsystem]; rfl, hirq, hnmi⟩, ?_, hdispatch,
    step_of_dispatch h s hdispatch hdebugger, hok, hjam, ?_, ?_, ?_,
    resetRequested_step h s hdispatch hdebugger⟩
  · rw [hsystem]
    exact c.system.sameMemory_reset
  · rw [countP_isReset_deeds, hreset]
    rfl
  · intro c' hc'
    rw [countP_isReset_deeds, hc']
    rfl
  · intro n
    induction n with
    | zero => rfl
    | succ n ih =>
      rw [Nat.repeat, ih]
      rfl

/-- While time passes, a latch for banks keeps what was written to it. -/
theorem latch_act_of_isPassing {d : Deed} (hd : d.isPassing = true) {b : System} {bank : UInt8}
    (hb : b.board.chip = .uxRom bank) : (d.act b).board.chip = .uxRom bank := by
  have hline : b.board.clockLine = b.board := by rw [Board.clockLine, hb]
  have hcycle : b.board.clockCycle = b.board := by rw [Board.clockCycle, hb]
  cases d with
  | dot =>
    have hdot : (b.ppu.tickWith b.board).2 = b.board := by
      unfold Ppu.tickWith
      dsimp only
      split
      · exact hline
      · rfl
    exact (congrArg Board.chip hdot).trans hb
  | fetch =>
    have hfetch : b.feedSamples.board = b.board := by
      rcases b.feedSamples_cases with ⟨_, heq⟩ | ⟨_, v, heq⟩ <;> rw [heq]
    exact (congrArg Board.chip hfetch).trans hb
  | clock => exact (congrArg Board.chip hcycle).trans hb
  | sound | wait | frame | pads => exact hb
  | _ => exact absurd hd Bool.false_ne_true

theorem latch_complete {c : Console} {bank : UInt8} (hc : c.system.board.chip = .uxRom bank)
    (used : Nat) : (c.complete h used s).2.1.system.board.chip = .uxRom bank := by
  have hpassing := (c.passes_completeDeeds h s used).2.2
  obtain ⟨remote, hcomplete, -⟩ := c.complete_cases h s used
  rw [hcomplete]
  exact replay_preserves (P := fun b => b.board.chip = .uxRom bank)
    (fun _ d hd hb => latch_act_of_isPassing (hpassing d hd) hb) hc

/-- A reset after a step that has written to the latch for banks. -/
theorem restarts_latched :
    ∃ cart c₀ c,
      Cartridge.ofBytes (smallImage 2 #[0xEE, 0x00, 0x80, 0xB2, 0x00, 0x80, 0, 0]) = .ok cart ∧
      powerOn cart {} = .ok c₀ ∧ Session c₀ c ∧ c.system.board.chip = .uxRom 15 ∧
      c.remote.resetRequested = true ∧
      c.applyReset.cpu = { Cpu.powerOn with pc := 0x8000, cycles := 7 } ∧
      c.applyReset.dispatch = (0, c.applyReset) ∧
      (c.deeds Host.silent ()).countP Deed.isReset = 1 ∧
      (c.step Host.silent ()).2.1.remote.resetRequested = false := by
  have hpower : ∃ cart c₀,
      Cartridge.ofBytes (smallImage 2 #[0xEE, 0x00, 0x80, 0xB2, 0x00, 0x80, 0, 0]) = .ok cart ∧
      powerOn cart {} = .ok c₀ ∧ c₀.remote.resetRequested = false ∧
      c₀.system.ppu.nmi = false ∧ c₀.cpu.status.interruptDisable = true ∧ c₀.cpu.pc = 0x8000 ∧
      c₀.instruction.1 = .ok 6 ∧ c₀.instruction.2.system.board.chip = .uxRom 15 :=
    ⟨_, _, rfl, rfl, rfl, rfl, rfl, rfl, rfl, rfl⟩
  obtain ⟨cart, c₀, hcart, h₀, hno, hnmi, hmasked, hpc, hused, hlatch⟩ := hpower
  have hself := applyReset_eq_self hno
  have hstep := step_of_dispatch Host.silent () (c := c₀)
    (by rw [hself]; exact dispatch_of_masked hnmi fun _ => hmasked) rfl
  rw [hself] at hstep
  have hwritten : (c₀.step Host.silent ()).2.1.system.board.chip = .uxRom 15 := by
    generalize c₀.instruction = r at hstep hused hlatch
    obtain ⟨_, c'⟩ := r
    cases hused
    rw [hstep]
    exact latch_complete Host.silent () hlatch 6
  have hsession : Session c₀ (c₀.step Host.silent ()).2.1 := .step .start Host.silent ()
  have hc := hsession.handled (.steer (c₀.step Host.silent ()).2.1.remote.reset none none)
  obtain ⟨-, ⟨hcpu, -⟩, -, hdispatch, -, -, -, hone, -, -, hdown⟩ :=
    Session.restarts Host.silent () h₀ hc rfl rfl
  rw [hpc] at hcpu
  exact ⟨cart, c₀, _, hcart, h₀, hc, hwritten, rfl, hcpu, hdispatch, hone, hdown fun _ _ _ => rfl⟩

end Console

end Nes
