import Nes.Proofs.Console.Deeds
import Nes.Proofs.System.Elapse

/-!
# Between two instructions

`Reachable c` says that the console `c` comes from power-on by steps, with any hosts, and by what is
done from outside between two of them (`Handled`).

At every boundary between two instructions there is nothing to wait for, and the timer of the sample
channel is one of its register's (`Settled`).  Therefore no step takes more than 534 cycles
(`Reachable.step_short`): eight for the instruction, 514 for one copy, and twelve for three bytes of
samples.  How the cycles of a step come about is told by `Worked.completed`, and for a step that is
one instruction by `step_of_instruction`.
-/

namespace Nes.Console

open Nes.System

/-! ### Reachable consoles -/

/-- What is done to a console from outside. -/
inductive Handled (c : Console) : Console → Prop
  /-- The remote control is used, and traces and notes are begun or ended. -/
  | steer (remote : Remote) (trace : Option (Array String)) (notices : Option (Array Notice)) :
    Handled c { c with machine := ⟨c.cpu, { c.system with notices }⟩, remote, trace }
  /-- A player is attached. -/
  | attachPlayer : Handled c c.attachPlayer
  /-- The console is stopped. -/
  | stop : Handled c c.stop

theorem Handled.cases {c c' : Console} (h : Handled c c') :
    c'.cpu = c.cpu ∧ c'.cycles = c.cycles ∧ ∃ player notices,
      c'.system = { c.system with apu := { c.system.apu with player }, notices } := by
  obtain ⟨⟨cpu, bus⟩, tvSystem, remote, cycles, pauseCycles, trace⟩ := c
  cases h with
  | steer _ _ notices => exact ⟨rfl, rfl, bus.apu.player, notices, rfl⟩
  | attachPlayer => exact ⟨rfl, rfl, _, bus.notices, rfl⟩
  | stop => exact ⟨rfl, rfl, _, bus.notices, rfl⟩

/-- A console that a cartridge, its program and its user can bring about. -/
inductive Reachable : Console → Prop
  /-- Power is turned on. -/
  | powerOn {cart : Cartridge} {config : Config} {c : Console} (h : powerOn cart config = .ok c) :
    Reachable c
  /-- The console takes a step. -/
  | step {c : Console} (hc : Reachable c) {η : Type} (h : Host η) (s : η) :
    Reachable (c.step h s).2.1
  /-- Something is done to it between two steps. -/
  | handled {c c' : Console} (hc : Reachable c) (h : Handled c c') : Reachable c'

variable {η : Type} (h : Host η) (c : Console) (s : η)

theorem Reachable.loop {c : Console} (hc : Reachable c) (fuel : Nat) :
    Reachable (c.loop h fuel s).2.1 := by
  induction fuel generalizing c s with
  | zero => exact hc
  | succ fuel ih =>
    unfold Console.loop
    split
    · exact hc
    have hstep := hc.step h s
    revert hstep
    generalize c.step h s = r
    obtain ⟨_ | _, c', s'⟩ := r
    · exact id
    · exact fun hc' => ih s' hc'

/-- A run goes through reachable consoles. -/
theorem Reachable.run {c : Console} (hc : Reachable c) (fuel : Nat) :
    Reachable (c.run h fuel s).2.1 := by
  -- The end of a run is a stop, after which the remote control is as it was.
  have hstop : ∀ q : Console, Reachable q →
      Reachable (q.withSystem fun b => ((), { b with apu := b.apu.stop })).2 := fun q hq =>
    (hq.handled .stop).handled (.steer q.remote q.trace q.system.notices)
  have hloop := hc.loop h s fuel
  unfold Console.run
  generalize c.loop h fuel s = r at hloop
  obtain ⟨_ | _ | _, c', s'⟩ := r
  · exact hloop
  · exact hstop _ (hloop.handled (.steer c'.remote.stop c'.trace c'.system.notices))
  · exact hstop _ hloop

/-- At power-on, the processor has read the address of its program. -/
theorem powerOn_cases {cart : Cartridge} {config : Config} {c : Console}
    (h : powerOn cart config = .ok c) :
    ∃ rate hz board,
      c.machine = Machine.reset ⟨Cpu.powerOn, { apu := Apu.powerOn rate hz, board }⟩ ∧
        c.cycles = 0 ∧ ∃ cart', Board.ofCartridge cart' = some board := by
  unfold powerOn at h
  simp only [bind, Except.bind, pure, Except.pure, throw, throwThe, MonadExceptOf.throw] at h
  split at h
  · cases h
  split at h
  · next hboard =>
    cases h
    exact ⟨_, _, _, rfl, rfl, _, hboard⟩
  · cases h

/-- The image of a board with a number below sixteen, with eight bytes of program and one byte of
patterns.  The program is seen again and again up to the last address, so that its fifth and sixth
byte tell where it starts. -/
def smallImage (number : UInt8) (program : Array UInt8) : Array UInt8 :=
  (#[0x4E, 0x45, 0x53, 0x1A, 0x0C, 0, number <<< 4, 8, 0, 0xFF, 0, 0, 0, 0, 0, 0] : Array UInt8) ++
    program ++ #[0xFF]

/-- The image of a program that starts with a copy into sprite memory. -/
def copyingImage : Array UInt8 := smallImage 0 #[0x8D, 0x14, 0x40, 0xB2, 0x00, 0x80, 0, 0]

/-- The image of a program whose first instruction stops the processor. -/
def jammingImage : Array UInt8 := smallImage 0 #[0xB2, 0, 0, 0, 0x00, 0x80, 0, 0]

/-! ### What is true at a boundary -/

/-- There is nothing to wait for, and the timer of the sample channel is one of its register's. -/
structure Settled (s : System) : Prop where
  /-- The processor does not have to wait. -/
  stall : s.stall = 0
  /-- The timer is not fast. -/
  slow : s.apu.dmc.Slow

theorem Settled.reset (m : Machine System) (hm : Settled m.bus) : Settled m.reset.bus := by
  rw [← Machine.foldl_resetAccesses, ← replay_accessesDeeds]
  exact ⟨(stall_quiet _ (isQuiet_resetAccesses m)).trans hm.stall, slow_replay hm.slow _⟩

theorem Settled.powerOn {cart : Cartridge} {config : Config} {c : Console}
    (h : powerOn cart config = .ok c) : Settled c.system := by
  obtain ⟨rate, hz, board, hm, _⟩ := powerOn_cases h
  rw [system, hm]
  exact Settled.reset _ ⟨rfl, (by decide : 54 ≤ 428)⟩

theorem Settled.handled {c c' : Console} (hc : Settled c.system) (h : Handled c c') :
    Settled c'.system := by
  obtain ⟨_, _, player, notices, hsystem⟩ := h.cases
  rw [hsystem]
  exact ⟨hc.stall, hc.slow⟩

variable {c}

theorem Settled.applyReset (hc : Settled c.system) : Settled c.applyReset.system := by
  unfold Console.applyReset
  split
  · exact Settled.reset ⟨c.cpu, c.system.reset⟩ ⟨rfl, Deed.slow_act hc.slow .reset⟩
  · exact hc

/-- After a reset the processor reads the address of its program. -/
theorem mem_resetDeeds {d : Deed} (hd : d ∈ c.resetDeeds) : d = .reset ∨ d.isAccess = true := by
  unfold resetDeeds at hd
  split at hd
  · rcases List.mem_cons.1 hd with rfl | hd
    · exact Or.inl rfl
    · exact Or.inr (isQuiet_resetAccesses ⟨c.cpu, c.system.reset⟩ d hd).isAccess
  · exact absurd hd List.not_mem_nil

theorem mem_pollDeeds {d : Deed} (hd : d ∈ c.pollDeeds) : d = .poll ∨ d = .nmi := by
  unfold pollDeeds at hd
  split at hd
  · exact absurd hd List.not_mem_nil
  rcases List.mem_cons.1 hd with rfl | hd
  · exact Or.inl rfl
  split at hd
  · exact Or.inr (List.mem_singleton.1 hd)
  · exact absurd hd List.not_mem_nil

theorem isTimeless_pollDeeds : ∀ d ∈ c.pollDeeds, d.isTimeless = true ∧ d.isAccess = false := by
  intro d hd
  rcases mem_pollDeeds hd with rfl | rfl
  · exact ⟨rfl, rfl⟩
  · exact ⟨rfl, rfl⟩

theorem isTimeless_deliverDeeds :
    ∀ d ∈ c.deliverDeeds h s, d.isTimeless = true ∧ d.isPassing = true := by
  intro d hd
  unfold deliverDeeds at hd
  rw [List.mem_cons] at hd
  rcases hd with rfl | hd
  · exact ⟨rfl, rfl⟩
  split at hd
  · split at hd
    · rw [List.mem_singleton.1 hd]
      exact ⟨rfl, rfl⟩
    · exact absurd hd List.not_mem_nil
  · exact absurd hd List.not_mem_nil

theorem stall_pollDeeds : (c.system.replay c.pollDeeds).stall = c.system.stall := by
  rw [replay_pollDeeds]
  split <;> rfl

theorem stall_deliverDeeds : (c.system.replay (c.deliverDeeds h s)).stall = c.system.stall := by
  unfold deliverDeeds
  rw [replay_cons]
  split
  · split <;> rfl
  · rfl

theorem Settled.pollDeeds (hc : Settled c.system) : Settled (c.system.replay c.pollDeeds) :=
  ⟨c.stall_pollDeeds.trans hc.stall, slow_replay hc.slow _⟩

/-- The time that passes: the cycles used, those due, and four for each byte fetched. -/
theorem passes_completeDeeds (used : Nat) :
    (∃ f, Deed.Passes (c.completeDeeds h s used) (c.elapse used).1 f ∧
      (c.elapse used).1 = used + c.system.stall + 4 * f) ∧
    (c.system.replay (c.completeDeeds h s used)).stall = 0 ∧
    ∀ d ∈ c.completeDeeds h s used, d.isPassing = true := by
  have hdeliver := (c.elapse used).2.isTimeless_deliverDeeds h s
  obtain ⟨f, hticks, hticked⟩ := passes_tickDeeds c.system used
  obtain ⟨n, f', hn, hwaits, hwaited⟩ := passes_drainDeeds (c.system.tick used) 0
    (c.system.tick used).drainBound
  have hzero := (waits_drain (c.system.tick used)).stall_eq_zero
  have htotal : (c.elapse used).1 = used + n := by
    rw [elapse_eq, drain, hn, Nat.zero_add]
  refine ⟨⟨f + f', ?_, ?_⟩, ?_, ?_⟩
  · rw [htotal]
    exact (hticks.append hwaits).append (Deed.Passes.zero fun d hd => (hdeliver d hd).1)
  · rw [drain] at hzero
    omega
  · rw [completeDeeds, replay_append, replay_elapseDeeds, stall_deliverDeeds]
    exact hzero
  · intro d hd
    simp only [completeDeeds, elapseDeeds, List.mem_append] at hd
    rcases hd with (hd | hd) | hd
    · exact isPassing_tickDeeds _ _ d hd
    · exact isPassing_drainDeeds _ _ d hd
    · exact (hdeliver d hd).2

/-- Without an interrupt, a step tells the cycles of its instruction, and those of the copies that it
starts and of the fetches.  Nothing else makes copies. -/
theorem step_of_instruction (hc : Settled c.applyReset.system)
    (hdispatch : c.applyReset.dispatch = (0, c.applyReset)) (hdebugger : h.debugger = none)
    (hok : ∀ picture remote s, (h.onFrame picture remote s).1 = .ok ()) {used : Nat}
    (hused : c.applyReset.instruction.1 = .ok used) :
    let copies := c.applyReset.system.copyCycles c.applyReset.instructionDeeds
    (∃ f, (c.step h s).1 = .ok (used + copies + 4 * f)) ∧
      c.applyReset.system.copyCycles (c.applyReset.deeds h s) = copies := by
  intro copies
  have hself := applyReset_eq_self c.resetRequested_applyReset
  have hstep := step_of_dispatch h s hdispatch hdebugger
  have hdeeds := c.applyReset.deeds_of_dispatch h s (by rw [hself]; exact hdispatch) hdebugger
  have hreset : c.applyReset.resetDeeds = [] := by
    rw [resetDeeds, c.resetRequested_applyReset, if_neg Bool.false_ne_true]
  have hserved := c.applyReset.replay_servedDeeds
  have hafter := (c.applyReset.system.replay_of_isAccess
    c.applyReset.accessing_instructionDeeds.isAccess).1
  rw [hself, hreset, List.nil_append] at hdeeds
  rw [hdispatch] at hserved
  rw [replay_instructionDeeds, hc.stall, Nat.zero_add] at hafter
  generalize c.applyReset.instruction = r at hused hstep hdeeds hafter
  obtain ⟨_, c'⟩ := r
  cases hused
  obtain ⟨⟨f, -, htotal⟩, -, hpassing⟩ := c'.passes_completeDeeds h s used
  refine ⟨⟨f, ?_⟩, ?_⟩
  · rw [hstep, c'.complete_of_ok h s hok, htotal]
    exact congrArg (fun stall => Except.ok (used + stall + 4 * f)) hafter
  · rw [hdeeds]
    simp only [copyCycles_append, replay_append, hserved]
    rw [copyCycles_eq_zero _ fun d hd => (c.applyReset.isTimeless_pollDeeds d hd).2,
      copyCycles_quiet _ c.applyReset.isQuiet_servedDeeds,
      copyCycles_eq_zero _ fun d hd => Deed.isAccess_of_isPassing (hpassing d hd)]
    omega

/-- What the cycles of a step are made of, when one completes. -/
theorem Worked.completed {ds : List Deed} {used : Nat} {c' : Console} (hw : Worked c ds used c')
    (hc : Settled c.system) :
    (∃ f, Deed.Passes (c.pollDeeds ++ (ds ++ c'.completeDeeds h s used)) (c'.elapse used).1 f ∧
      (c'.elapse used).1 = used +
        c.system.copyCycles (c.pollDeeds ++ (ds ++ c'.completeDeeds h s used)) + 4 * f) ∧
    (c'.elapse used).1 ≤ 534 ∧ Settled (c'.system.replay (c'.completeDeeds h s used)) := by
  have hpoll := c.isTimeless_pollDeeds
  obtain ⟨⟨f, hpasses, htotal⟩, hzero, hpassing⟩ := c'.passes_completeDeeds h s used
  obtain ⟨hstall, _⟩ := replay_of_isAccess (c.system.replay c.pollDeeds) hw.accessing.isAccess
  rw [c.stall_pollDeeds, hc.stall, ← hw.system, Nat.zero_add] at hstall
  have hslow : c'.system.apu.dmc.Slow := by
    rw [hw.system]
    exact slow_replay (slow_replay hc.slow _) _
  have hcopies : c.system.copyCycles (c.pollDeeds ++ (ds ++ c'.completeDeeds h s used)) =
      c'.system.stall := by
    rw [copyCycles_append, copyCycles_append, copyCycles_eq_zero _ fun d hd => (hpoll d hd).2,
      copyCycles_eq_zero _ fun d hd => Deed.isAccess_of_isPassing (hpassing d hd), Nat.zero_add,
      hstall, Nat.add_zero]
  refine ⟨⟨f, ?_, ?_⟩, ?_, hzero, slow_replay hslow _⟩
  · have hbefore := Deed.Passes.zero fun d hd => (hpoll d hd).1
    have haccessing := Deed.Passes.zero fun d hd =>
      Deed.isTimeless_of_isAccess (hw.accessing.isAccess d hd)
    have hall := hbefore.append (haccessing.append hpasses)
    simp only [Nat.zero_add] at hall
    exact hall
  · rw [hcopies]
    exact htotal
  · have hcopy := copyCycles_le (c.system.replay c.pollDeeds) hw.accessing
    have height := hw.le_eight
    have hdue : c'.system.stall + used ≤ 522 := by omega
    have hle := drain_le hslow hdue
    rw [elapse_eq]
    omega

/-- A step that does not complete lets no time pass. -/
theorem Rested.passes {ds : List Deed} {c' : Console} (hr : Rested c ds c')
    (hc : Settled c.system) :
    Deed.Passes (c.pollDeeds ++ ds) 0 0 ∧ c.system.copyCycles (c.pollDeeds ++ ds) = 0 ∧
      Settled c'.system := by
  have hpoll := c.isTimeless_pollDeeds
  refine ⟨?_, ?_, ?_⟩
  · have hbefore := Deed.Passes.zero fun d hd => (hpoll d hd).1
    exact hbefore.append (Deed.Passes.zero fun d hd =>
      Deed.isTimeless_of_isAccess (hr.quiet d hd).isAccess)
  · rw [copyCycles_append, copyCycles_eq_zero _ fun d hd => (hpoll d hd).2,
      copyCycles_quiet _ hr.quiet]
  · rw [hr.system]
    exact ⟨(stall_quiet _ hr.quiet).trans hc.pollDeeds.stall, slow_replay hc.pollDeeds.slow _⟩

theorem Settled.step (hc : Settled c.system) : Settled (c.step h s).2.1.system := by
  rcases c.step_cases h s with ⟨ds, used, c', s', hw, hstep, _⟩ | ⟨ds, j, c', s', hr, hstep, _⟩ |
    ⟨ds, c', s', hr, hstep, _⟩
  · obtain ⟨remote, hcomplete, _⟩ := c'.complete_cases h s' used
    rw [hstep, hcomplete]
    exact (hw.completed h s' hc.applyReset).2.2
  · rw [hstep]
    exact (hr.passes hc.applyReset).2.2
  · rw [hstep]
    exact (hr.passes hc.applyReset).2.2

theorem Reachable.settled (hc : Reachable c) : Settled c.system := by
  induction hc with
  | powerOn h => exact Settled.powerOn h
  | step _ h s ih => exact Settled.step h s ih
  | handled _ h ih => exact ih.handled h

/-- **A step is short, and nothing is left to wait for.**  Whatever is due, taking it and letting it
pass comes to an end; at every boundary between two instructions, also when a step has failed,
nothing is due; and a step that succeeds has taken from 2 to 534 cycles, unless a debugger held the
console until it was stopped. -/
theorem Reachable.step_short (hc : Reachable c) :
    (∀ b : System, Drains b b.drain.1 b.drain.2) ∧
    c.system.stall = 0 ∧ (c.step h s).2.1.system.stall = 0 ∧
    ∀ n, (c.step h s).1 = .ok n →
      2 ≤ n ∧ n ≤ 534 ∨
        n = 0 ∧ h.debugger.isSome = true ∧ (c.step h s).2.1.remote.stopped = true := by
  have hsettled := hc.settled
  refine ⟨fun b => b.waits_drain.drains, hsettled.stall, (hsettled.step h s).stall, ?_⟩
  intro n hn
  rcases c.step_cases h s with ⟨ds, used, c', s', hw, hstep, _⟩ | ⟨ds, j, c', s', hr, hstep, _⟩ |
    ⟨ds, c', s', hr, hstep, hstopped, hdebugger, _⟩
  · obtain ⟨⟨f, _, htotal⟩, hle, _⟩ := hw.completed h s' hsettled.applyReset
    obtain ⟨remote, _, hresult⟩ := c'.complete_cases h s' used
    rw [hstep] at hn
    rcases hresult with hok | ⟨text, herror⟩
    · rw [hok] at hn
      cases hn
      have := hw.two_le
      exact Or.inl ⟨by omega, hle⟩
    · rw [herror] at hn
      cases hn
  · rw [hstep] at hn
    cases hn
  · rw [hstep] at hn ⊢
    cases hn
    exact Or.inr ⟨rfl, hdebugger, hstopped⟩

/-- The first step of the program that starts with a copy makes it. -/
theorem step_copying :
    ∃ cart c, Cartridge.ofBytes copyingImage = .ok cart ∧ powerOn cart {} = .ok c ∧
      (∃ n, (c.step Host.silent ()).1 = .ok n ∧ 517 ≤ n) ∧
      c.applyReset.system.copyCycles (c.applyReset.deeds Host.silent ()) = 513 := by
  have hpower : ∃ cart c, Cartridge.ofBytes copyingImage = .ok cart ∧ powerOn cart {} = .ok c ∧
      c.remote.resetRequested = false ∧ c.system.ppu.nmi = false ∧
      c.cpu.status.interruptDisable = true ∧ c.system.cycles = 0 ∧ c.instruction.1 = .ok 4 ∧
      c.instructionDeeds = c.system.accessesDeeds
        [.read 0x8000 0x8D, .read 0x8001 0x14, .read 0x8002 0x40, .write 0x4014 0] :=
    ⟨_, _, rfl, rfl, rfl, rfl, rfl, rfl, rfl, rfl⟩
  obtain ⟨cart, c, hcart, hc, hreset, hnmi, hmasked, hcycles, hused, hdeeds⟩ := hpower
  have hself := applyReset_eq_self hreset
  have hcopies : c.system.copyCycles c.instructionDeeds = 513 := by
    rw [hdeeds, copyCycles_accessesDeeds, hcycles]
    decide
  obtain ⟨⟨f, hok⟩, hall⟩ := step_of_instruction Host.silent () (c := c)
    (by rw [hself]; exact .powerOn hc)
    (by rw [hself]; exact dispatch_of_masked hnmi fun _ => hmasked) rfl (fun _ _ _ => rfl)
    (by rw [hself]; exact hused)
  rw [hself, hcopies] at hok hall
  refine ⟨cart, c, hcart, hc, ⟨_, hok, by omega⟩, ?_⟩
  rw [hself]
  exact hall

/-- A step with a copy. -/
theorem step_short_copying :
    ∃ cart c n, Cartridge.ofBytes copyingImage = .ok cart ∧ powerOn cart {} = .ok c ∧
      (c.step Host.silent ()).1 = .ok n ∧ 517 ≤ n ∧ n ≤ 534 ∧
      (c.step Host.silent ()).2.1.system.stall = 0 := by
  obtain ⟨cart, c, hcart, hc, ⟨n, hn, hle⟩, -⟩ := step_copying
  obtain ⟨-, -, hstall, hshort⟩ := Reachable.step_short Host.silent () (Reachable.powerOn hc)
  rcases hshort n hn with hshort | ⟨-, hdebugger, -⟩
  · exact ⟨cart, c, n, hcart, hc, hn, hle, hshort.2, hstall⟩
  · exact absurd hdebugger Bool.false_ne_true

end Nes.Console
