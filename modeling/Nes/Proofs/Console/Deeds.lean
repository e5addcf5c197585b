import Nes.Console.Run
import Nes.Proofs.Cpu.Timing
import Nes.Proofs.System.Deeds

/-!
# What happens in a step

The deeds of a step of the console are those of its parts, in their order: a reset that was
requested, an interrupt, an instruction, the time that passes, and the picture that is handed out
(`Console.deeds`).  Replaying them from the system before the step gives the system after it
(`Console.replay_deeds`), so that what is true of every deed can be read off for steps.

`Console.step_cases` tells how a step can go: through an interrupt, through an instruction, to a
processor that stops, or nowhere, when a debugger does not let it.  Without an interrupt and a
debugger it is one instruction (`Console.step_of_dispatch`).
-/

namespace Nes.Console

open Nes.System

variable {η : Type} (h : Host η) (c : Console) (s : η)

/-! ### The parts of a step -/

/-- The processor after the question for an interrupt by the picture unit. -/
def polled : Machine System := ⟨c.cpu, c.system.pollNmi.2⟩

/-- The processor after the interrupt that is to be entered, if there is one, and its cycles. -/
def served : Nat × Machine System :=
  if c.system.ppu.nmi then c.polled.interrupt .nmi
  else if c.polled.bus.irq then c.polled.interrupt .irq
  else (0, c.polled)

theorem dispatch_eq :
    c.dispatch =
      if c.cpu.halted then (0, c) else (c.served.1, { c with machine := c.served.2 }) := by
  obtain ⟨⟨cpu, bus⟩, tvSystem, remote, cycles, pauseCycles, trace⟩ := c
  rfl

/-- The processor after an instruction, traced or not, and its result. -/
def executed : Except Cpu.Jam Nat × Machine System :=
  match c.trace with
  | none => c.machine.step
  | some _ => (c.machine.stepTraced.1.1, c.machine.stepTraced.2)

theorem instruction_eq :
    ∃ trace, c.instruction = (c.executed.1, { c with machine := c.executed.2, trace }) := by
  obtain ⟨machine, tvSystem, remote, cycles, pauseCycles, trace⟩ := c
  cases trace with
  | none => exact ⟨none, rfl⟩
  | some lines => exact ⟨_, rfl⟩

theorem elapse_eq (used : Nat) :
    let waited := (c.system.tick used).drain
    c.elapse used =
      (used + waited.1, { c with
        machine := ⟨c.cpu, waited.2⟩
        cycles := c.cycles + (used + waited.1) }) := rfl

/-- A debugger changes nothing but the remote control and the count up to the last pause. -/
theorem consult_eq :
    ∃ remote pauseCycles, (c.consult h s).2.1 = { c with remote, pauseCycles } := by
  unfold consult
  split
  · exact ⟨c.remote, c.pauseCycles, rfl⟩
  · dsimp only
    split
    · exact ⟨_, _, rfl⟩
    · exact ⟨_, c.pauseCycles, rfl⟩

theorem consult_of_none (hdebugger : h.debugger = none) : c.consult h s = (true, c, s) := by
  rw [consult, hdebugger]

/-! ### The deeds of a step -/

/-- A reset, if one was requested. -/
def resetDeeds : List Deed :=
  if c.remote.resetRequested then
    .reset :: c.system.reset.accessesDeeds (Machine.resetAccesses ⟨c.cpu, c.system.reset⟩)
  else []

/-- The question for an interrupt by the picture unit, and its start. -/
def pollDeeds : List Deed :=
  if c.cpu.halted then [] else .poll :: if c.system.ppu.nmi then [.nmi] else []

/-- The entry of an interrupt. -/
def servedDeeds : List Deed :=
  if c.cpu.halted then []
  else if c.system.ppu.nmi then c.polled.bus.accessesDeeds (c.polled.interruptAccesses .nmi)
  else if c.polled.bus.irq then c.polled.bus.accessesDeeds (c.polled.interruptAccesses .irq)
  else []

/-- An instruction. -/
def instructionDeeds : List Deed :=
  c.system.accessesDeeds
    (match c.trace with
    | none => c.machine.stepAccesses
    | some _ => c.machine.stepTracedAccesses)

/-- The time that the processor has used and that it waits. -/
def elapseDeeds (used : Nat) : List Deed :=
  let after := c.system.tick used
  c.system.tickDeeds used ++ after.drainDeeds after.drainBound

/-- The question for a picture, and the buttons after one. -/
def deliverDeeds : List Deed :=
  .frame ::
    if c.system.takeFrame.1 then
      match h.onFrame c.system.ppu.front c.remote s with
      | (.ok (), remote, _) => [.pads remote.pad1 remote.pad2]
      | (.error _, _, _) => []
    else []

/-- What follows an instruction or an interrupt. -/
def completeDeeds (used : Nat) : List Deed :=
  c.elapseDeeds used ++ (c.elapse used).2.deliverDeeds h s

/-- A step. -/
def deeds : List Deed :=
  c.resetDeeds ++
    let c := c.applyReset
    c.pollDeeds ++ c.servedDeeds ++
      let (used, c) := c.dispatch
      if used ≠ 0 then c.completeDeeds h s used
      else
        let (goes, c, s) := c.consult h s
        if !goes then []
        else
          c.instructionDeeds ++
            match c.instruction with
            | (.error _, _) => []
            | (.ok used, c) => c.completeDeeds h s used

/-! ### Replaying the parts -/

theorem replay_resetDeeds : c.system.replay c.resetDeeds = c.applyReset.system := by
  have hreset := replay_accessesDeeds c.system.reset
    (Machine.resetAccesses ⟨c.cpu, c.system.reset⟩)
  rw [Machine.foldl_resetAccesses ⟨c.cpu, c.system.reset⟩] at hreset
  unfold resetDeeds applyReset
  split
  · exact hreset
  · rfl

theorem resetRequested_applyReset : c.applyReset.remote.resetRequested = false := by
  unfold applyReset
  split
  · rfl
  · next hno => exact Bool.eq_false_iff.2 hno

theorem applyReset_eq_self {c : Console} (hno : c.remote.resetRequested = false) :
    c.applyReset = c := by
  rw [applyReset, hno, if_neg Bool.false_ne_true]

/-- A step with a reset is the reset and a step without one. -/
theorem step_applyReset : c.applyReset.step h s = c.step h s := by
  unfold step
  rw [applyReset_eq_self c.resetRequested_applyReset]

theorem deeds_eq : c.deeds h s = c.resetDeeds ++ c.applyReset.deeds h s := by
  have hnone : c.applyReset.resetDeeds = [] := by
    rw [resetDeeds, c.resetRequested_applyReset, if_neg Bool.false_ne_true]
  unfold deeds
  rw [hnone, applyReset_eq_self c.resetRequested_applyReset]
  rfl

theorem replay_pollDeeds :
    c.system.replay c.pollDeeds = if c.cpu.halted then c.system else c.polled.bus := by
  unfold pollDeeds
  split
  · rfl
  split <;> rfl

theorem replay_servedDeeds :
    (c.system.replay c.pollDeeds).replay c.servedDeeds = c.dispatch.2.system := by
  have hinterrupt : ∀ kind, c.polled.bus.replay
      (c.polled.bus.accessesDeeds (c.polled.interruptAccesses kind)) =
        (c.polled.interrupt kind).2.bus := fun kind => by
    rw [replay_accessesDeeds, Machine.foldl_interruptAccesses]
  rw [replay_pollDeeds, dispatch_eq, servedDeeds]
  split
  · rfl
  rw [served]
  split
  · exact hinterrupt .nmi
  split
  · exact hinterrupt .irq
  · rfl

theorem isQuiet_servedDeeds : ∀ d ∈ c.servedDeeds, d.IsQuiet := by
  have hinterrupt : ∀ kind, ∀ d ∈ c.polled.bus.accessesDeeds (c.polled.interruptAccesses kind),
      d.IsQuiet := fun kind =>
    isQuiet_accessesDeeds _ (Recorder.isQuiet_of_quiet
      (Bus.Quiet.refl.interrupt (m := c.polled.recording) kind))
  have hnil : ∀ d ∈ ([] : List Deed), d.IsQuiet := fun d hd => absurd hd List.not_mem_nil
  unfold servedDeeds
  split
  · exact hnil
  split
  · exact hinterrupt .nmi
  split
  · exact hinterrupt .irq
  · exact hnil

/-- The cycles of an interrupt, counted by the processor. -/
theorem dispatch_cases :
    c.dispatch.1 = 0 ∧ (∃ system, c.dispatch.2 = { c with machine := ⟨c.cpu, system⟩ }) ∨
      c.dispatch.1 = 7 ∧ c.dispatch.2.cycles = c.cycles ∧
        c.dispatch.2.cpu.cycles = c.cpu.cycles + 7 ∧ c.dispatch.2.cpu.halted = false := by
  rw [dispatch_eq]
  split
  · exact Or.inl ⟨rfl, c.system, rfl⟩
  next hhalted =>
  rw [Bool.not_eq_true] at hhalted
  have hinterrupt : ∀ kind, c.served = c.polled.interrupt kind →
      c.served = (0, c.polled) ∨ c.served.1 = 7 ∧ c.served.2.cpu.cycles = c.cpu.cycles + 7 ∧
        c.served.2.cpu.halted = false := by
    intro kind he
    rw [he, ← hhalted]
    exact c.polled.interrupt_cases kind
  have hserved : c.served = (0, c.polled) ∨ c.served.1 = 7 ∧
      c.served.2.cpu.cycles = c.cpu.cycles + 7 ∧ c.served.2.cpu.halted = false := by
    by_cases hnmi : c.system.ppu.nmi = true
    · exact hinterrupt .nmi (if_pos hnmi)
    by_cases hirq : c.polled.bus.irq = true
    · exact hinterrupt .irq ((if_neg hnmi).trans (if_pos hirq))
    · exact Or.inl ((if_neg hnmi).trans (if_neg hirq))
  rcases hserved with hs | ⟨h7, hcycles, hh⟩
  · rw [hs]
    exact Or.inl ⟨rfl, c.polled.bus, rfl⟩
  · exact Or.inr ⟨h7, rfl, hcycles, hh⟩

/-- While the picture unit wants no interrupt, the question for one changes nothing. -/
theorem polled_eq {c : Console} (hnmi : c.system.ppu.nmi = false) : c.polled = c.machine := by
  obtain ⟨⟨cpu, bus⟩, tvSystem, remote, cycles, pauseCycles, trace⟩ := c
  obtain ⟨ram, ppu, apu, pad1, pad2, board, busCycles, stall, notices⟩ := bus
  obtain ⟨_⟩ := ppu
  cases hnmi
  rfl

/-- Without a request that would be granted there is no interrupt. -/
theorem dispatch_of_masked {c : Console} (hnmi : c.system.ppu.nmi = false)
    (hirq : c.system.irq = true → c.cpu.status.interruptDisable = true) : c.dispatch = (0, c) := by
  have hserved : c.served = (0, c.machine) := by
    rw [served, hnmi, if_neg Bool.false_ne_true, polled_eq hnmi]
    split
    · next hrequested =>
      have hmasked : c.machine.cpu.status.interruptDisable = true := hirq hrequested
      simp only [Machine.interrupt, hmasked, beq_self_eq_true, Bool.and_self, ↓reduceIte]
    · rfl
  rw [dispatch_eq, hserved]
  split <;> rfl

theorem replay_instructionDeeds :
    c.system.replay c.instructionDeeds = c.instruction.2.system := by
  obtain ⟨trace, heq⟩ := c.instruction_eq
  rw [instructionDeeds, replay_accessesDeeds, heq, executed]
  split
  · exact Machine.foldl_stepAccesses c.machine
  · exact Machine.foldl_stepTracedAccesses c.machine

theorem replay_elapseDeeds (used : Nat) :
    c.system.replay (c.elapseDeeds used) = (c.elapse used).2.system := by
  simp only [elapseDeeds, replay_append, replay_tickDeeds]
  exact replay_drainDeeds _ 0 _

theorem deliver_eq :
    c.deliver h s =
      if c.system.ppu.frameReady then
        let (result, remote, s) := h.onFrame c.system.ppu.front c.remote s
        match result with
        | .ok () =>
          (.ok (), { c with machine := ⟨c.cpu, c.system.takeFrame.2⟩, remote }.applyButtons, s)
        | .error e =>
          (.error (.callbackFailed e.message),
            { c with machine := ⟨c.cpu, c.system.takeFrame.2⟩, remote }, s)
      else (.ok (), { c with machine := ⟨c.cpu, c.system.takeFrame.2⟩ }, s) := by
  obtain ⟨⟨cpu, bus⟩, tvSystem, remote, cycles, pauseCycles, trace⟩ := c
  rfl

/-- The picture and the buttons change nothing of the processor and the counts, and only a callback
can fail. -/
theorem deliver_cases :
    (∃ remote, (c.deliver h s).2.1 =
      { c with machine := ⟨c.cpu, c.system.replay (c.deliverDeeds h s)⟩, remote }) ∧
    ((c.deliver h s).1 = .ok () ∨ ∃ text, (c.deliver h s).1 = .error (.callbackFailed text)) := by
  obtain ⟨⟨cpu, bus⟩, tvSystem, remote, cycles, pauseCycles, trace⟩ := c
  have hsystem : ∀ q : System, q.takeFrame.1 = q.ppu.frameReady := fun _ => rfl
  have hx : h.onFrame bus.takeFrame.2.ppu.front remote s = h.onFrame bus.ppu.front remote s := rfl
  unfold deliver deliverDeeds
  by_cases hready : bus.ppu.frameReady = true
  · simp only [withSystem, system, hsystem, hready, ↓reduceIte]
    generalize h.onFrame bus.ppu.front remote s = x at hx
    rcases x with ⟨_ | _, remote', s'⟩
    · simp only [hx]
      exact ⟨⟨remote', rfl⟩, Or.inr ⟨_, rfl⟩⟩
    · simp only [hx]
      exact ⟨⟨remote', rfl⟩, Or.inl trivial⟩
  · rw [Bool.not_eq_true] at hready
    simp only [withSystem, system, hsystem, hready, ↓reduceIte, Bool.false_eq_true]
    exact ⟨⟨remote, rfl⟩, Or.inl trivial⟩

/-- What follows an instruction or an interrupt: time passes, and the picture is handed out. -/
theorem complete_cases (used : Nat) :
    ∃ remote, (c.complete h used s).2.1 =
      { c with
        machine := ⟨c.cpu, c.system.replay (c.completeDeeds h s used)⟩
        cycles := c.cycles + (c.elapse used).1
        remote } ∧
      ((c.complete h used s).1 = .ok (c.elapse used).1 ∨
        ∃ text, (c.complete h used s).1 = .error (.callbackFailed text)) := by
  obtain ⟨⟨remote, hc⟩, hresult⟩ := (c.elapse used).2.deliver_cases h s
  refine ⟨remote, ?_, ?_⟩
  · rw [completeDeeds, replay_append, replay_elapseDeeds]
    exact hc
  · have hfirst : (c.complete h used s).1 =
        ((c.elapse used).2.deliver h s).1.map fun _ => (c.elapse used).1 := rfl
    rw [hfirst]
    rcases hresult with hok | ⟨text, herr⟩
    · rw [hok]
      exact Or.inl rfl
    · rw [herr]
      exact Or.inr ⟨text, rfl⟩

/-- Time passes without a failure if the host receives every picture. -/
theorem complete_of_ok
    (hok : ∀ picture remote s, (h.onFrame picture remote s).1 = .ok ()) (used : Nat) :
    (c.complete h used s).1 = .ok (c.elapse used).1 := by
  have hdeliver (q : Console) : (q.deliver h s).1 = .ok () := by
    have hframe := hok q.system.ppu.front q.remote s
    rw [deliver_eq]
    generalize h.onFrame q.system.ppu.front q.remote s = x at hframe
    obtain ⟨result, remote, s'⟩ := x
    cases hframe
    split <;> rfl
  have hfirst : (c.complete h used s).1 =
      ((c.elapse used).2.deliver h s).1.map fun _ => (c.elapse used).1 := rfl
  rw [hfirst, hdeliver]
  rfl

/-! ### How a step can go -/

/-- Without an interrupt and without a debugger, a step is one instruction. -/
theorem step_of_dispatch {c : Console} (hdispatch : c.applyReset.dispatch = (0, c.applyReset))
    (hdebugger : h.debugger = none) :
    c.step h s = match c.applyReset.instruction with
      | (.error j, c') => (.error (.jam j), c', s)
      | (.ok used, c') => c'.complete h used s := by
  unfold step
  simp only [hdispatch, consult_of_none h _ s hdebugger, ne_eq, not_true_eq_false, Bool.not_true, Bool.false_eq_true,
    ↓reduceIte]
  generalize c.applyReset.instruction = r
  obtain ⟨_ | _, c'⟩ := r <;> rfl

/-- The deeds of such a step are those of the instruction, and of what follows it. -/
theorem deeds_of_dispatch {c : Console} (hdispatch : c.applyReset.dispatch = (0, c.applyReset))
    (hdebugger : h.debugger = none) :
    c.deeds h s = c.resetDeeds ++ c.applyReset.pollDeeds ++ c.applyReset.servedDeeds ++
      c.applyReset.instructionDeeds ++
      match c.applyReset.instruction with
      | (.error _, _) => []
      | (.ok used, c') => c'.completeDeeds h s used := by
  unfold deeds
  simp only [hdispatch, consult_of_none h _ s hdebugger, ne_eq, not_true_eq_false, Bool.not_true, Bool.false_eq_true,
    ↓reduceIte, List.append_assoc]

/-- The processor has entered an interrupt or executed an instruction, and time has not passed
yet. -/
structure Worked (c : Console) (ds : List Deed) (used : Nat) (c' : Console) : Prop where
  /-- The deeds follow the question for an interrupt. -/
  system : c'.system = (c.system.replay c.pollDeeds).replay ds
  /-- They are accesses. -/
  accessing : Deed.Accessing ds
  /-- The console has not counted the cycles yet. -/
  cycles : c'.cycles = c.cycles
  /-- The processor has. -/
  spent : c'.cpu.cycles = c.cpu.cycles + used
  /-- It goes on. -/
  halted : c'.cpu.halted = false
  /-- At least two cycles are used. -/
  two_le : 2 ≤ used
  /-- At most eight cycles are used. -/
  le_eight : used ≤ 8

/-- The processor has done nothing but read and push. -/
structure Rested (c : Console) (ds : List Deed) (c' : Console) : Prop where
  /-- The deeds follow the question for an interrupt. -/
  system : c'.system = (c.system.replay c.pollDeeds).replay ds
  /-- They are reads and pushes. -/
  quiet : ∀ d ∈ ds, d.IsQuiet
  /-- The console has counted nothing. -/
  cycles : c'.cycles = c.cycles
  /-- Neither has the processor. -/
  spent : c'.cpu.cycles = c.cpu.cycles

theorem accessing_instructionDeeds : Deed.Accessing c.instructionDeeds := by
  unfold instructionDeeds
  split
  · obtain ⟨quiet, hquiet, has⟩ := Recorder.accesses_of_accessed c.machine.recording.step_accessed
    exact accessing_accessesDeeds _ hquiet has
  · obtain ⟨quiet, hquiet, has⟩ :=
      Recorder.accesses_of_accessed c.machine.recording.stepTraced_accessed
    exact accessing_accessesDeeds _ hquiet has

theorem isQuiet_instructionDeeds {j : Cpu.Jam} (hj : c.executed.1 = .error j) :
    ∀ d ∈ c.instructionDeeds, d.IsQuiet := by
  have hstep := Recorder.hom_bus.step c.machine.recording
  have htraced := Recorder.hom_bus.stepTraced c.machine.recording
  rw [Machine.map_recording] at hstep htraced
  unfold executed at hj
  unfold instructionDeeds
  split at hj
  · rw [hstep] at hj
    exact isQuiet_accessesDeeds _ (Recorder.isQuiet_of_quiet (c.machine.recording.step_quiet hj))
  · rw [htraced] at hj
    exact isQuiet_accessesDeeds _
      (Recorder.isQuiet_of_quiet (c.machine.recording.stepTraced_quiet hj))

theorem timed_executed : Machine.Timed c.cpu c.executed.1 c.executed.2.cpu := by
  unfold executed
  split
  · exact c.machine.timed_step
  · exact c.machine.timed_stepTraced

/-- Only a debugger holds the console, and only one that is to stop. -/
theorem held_of_consult (hgoes : (c.consult h s).1 = false) :
    h.debugger.isSome = true ∧ (c.consult h s).2.1.remote.stopped = true := by
  unfold consult at hgoes ⊢
  split at hgoes
  · exact absurd hgoes (by simp)
  · next d hd =>
    refine ⟨by rw [hd]; rfl, ?_⟩
    dsimp only at hgoes ⊢
    split at hgoes
    · next hpauses =>
      simp only [hpauses, ↓reduceIte]
      exact (Bool.not_eq_false' _).mp hgoes
    · next hpauses =>
      simp only [hpauses]
      exact (Bool.not_eq_false' _).mp hgoes

/-- A step works and completes, or stops for good, or is held by a debugger. -/
theorem step_cases :
    (∃ ds used c' s', Worked c.applyReset ds used c' ∧ c.step h s = c'.complete h used s' ∧
      c.deeds h s =
        c.resetDeeds ++ (c.applyReset.pollDeeds ++ (ds ++ c'.completeDeeds h s' used))) ∨
    (∃ ds j c' s', Rested c.applyReset ds c' ∧ c.step h s = (.error (.jam j), c', s') ∧
      c'.cpu.halted = true ∧
      c.deeds h s = c.resetDeeds ++ (c.applyReset.pollDeeds ++ ds)) ∨
    (∃ ds c' s', Rested c.applyReset ds c' ∧ c.step h s = (.ok 0, c', s') ∧
      c'.remote.stopped = true ∧ h.debugger.isSome = true ∧
      c.deeds h s = c.resetDeeds ++ (c.applyReset.pollDeeds ++ ds)) := by
  have hserved := c.applyReset.replay_servedDeeds
  have hquiet := c.applyReset.isQuiet_servedDeeds
  unfold step deeds
  simp only [List.append_assoc]
  rcases c.applyReset.dispatch_cases with ⟨hused, system, hc⟩ | ⟨hused, hcycles, hspent, hhalted⟩
  · rw [hused]
    simp only [ne_eq, not_true_eq_false, ↓reduceIte]
    generalize hasked : c.applyReset.dispatch.2.consult h s = asked
    obtain ⟨goes, c', s'⟩ := asked
    obtain ⟨remote, pauseCycles, hc'⟩ := c.applyReset.dispatch.2.consult_eq h s
    rw [hasked, hc] at hc'
    simp only at hc'
    have hsystem : c'.system = (c.applyReset.system.replay c.applyReset.pollDeeds).replay
        c.applyReset.servedDeeds := by
      rw [hserved, hc', hc]
      rfl
    have hcycles : c'.cycles = c.applyReset.cycles := by rw [hc']
    have hcpu : c'.cpu = c.applyReset.cpu := by rw [hc']; rfl
    cases goes with
    | false =>
      have hheld := c.applyReset.dispatch.2.held_of_consult h s (by rw [hasked])
      rw [hasked] at hheld
      simp only [Bool.not_false, ↓reduceIte, List.append_nil]
      exact Or.inr (Or.inr ⟨_, c', s', ⟨hsystem, hquiet, hcycles, by rw [hcpu]⟩, rfl, hheld.2,
        hheld.1, rfl⟩)
    | true =>
      obtain ⟨trace, hinstr⟩ := c'.instruction_eq
      have hreplay := c'.replay_instructionDeeds
      have htimed := c'.timed_executed
      rw [hsystem, hinstr] at hreplay
      simp only [Bool.not_true, Bool.false_eq_true, ↓reduceIte, hinstr]
      cases hresult : c'.executed.1 with
      | error j =>
        rw [hresult] at htimed
        refine Or.inr (Or.inl ⟨c.applyReset.servedDeeds ++ c'.instructionDeeds, j,
          { c' with machine := c'.executed.2, trace }, s',
          ⟨?_, ?_, hcycles, ?_⟩, rfl, htimed.2, ?_⟩)
        · rw [replay_append, hreplay]
        · intro d hd
          rw [List.mem_append] at hd
          rcases hd with hd | hd
          · exact hquiet d hd
          · exact c'.isQuiet_instructionDeeds hresult d hd
        · rw [← hcpu]
          exact htimed.1
        · rw [List.append_nil]
      | ok used =>
        rw [hresult] at htimed
        obtain ⟨h2, h8, hspent, hhalted⟩ := htimed
        refine Or.inl ⟨c.applyReset.servedDeeds ++ c'.instructionDeeds, used,
          { c' with machine := c'.executed.2, trace }, s',
          ⟨?_, c'.accessing_instructionDeeds.quiet_append hquiet, hcycles, ?_, hhalted, h2, h8⟩,
          rfl, ?_⟩
        · rw [replay_append, hreplay]
        · rw [← hcpu]
          exact hspent
        · rw [List.append_assoc]
  · rw [hused]
    refine Or.inl ⟨_, 7, _, s, ⟨hserved.symm, .of_quiet hquiet, hcycles, hspent, hhalted,
      by decide, by decide⟩, rfl, rfl⟩

theorem replay_deeds : c.system.replay (c.deeds h s) = (c.step h s).2.1.system := by
  rcases c.step_cases h s with ⟨ds, used, c', s', hw, hstep, hds⟩ |
    ⟨ds, j, c', s', hr, hstep, _, hds⟩ | ⟨ds, c', s', hr, hstep, _, _, hds⟩
  · obtain ⟨remote, hc, _⟩ := c'.complete_cases h s' used
    rw [hds, hstep, replay_append, replay_append, replay_append, replay_resetDeeds, ← hw.system, hc]
    rfl
  · rw [hds, hstep, replay_append, replay_append, replay_resetDeeds, hr.system]
  · rw [hds, hstep, replay_append, replay_append, replay_resetDeeds, hr.system]

end Nes.Console
