import Nes.Proofs.Console.Boundary
import Nes.Proofs.Console.Steps
import Nes.Proofs.System.Silent

/-!
# What a trace changes

For the line of a trace the bytes of an instruction are read a second time, through the same bus.
Where these reads are silent, a traced instruction does what an instruction does
(`Machine.stepTraced_of_shows`), and a run whose instructions all lie at such addresses is the same
with a trace and without one, step by step (`Console.trace_observes`).  This is so in memory and on
the board, where programs are.

It is not so at the registers.  An instruction that is fetched from a controller moves its buttons
on by one with every read, and a trace reads it once more (`Console.trace_disturbs`).
-/

namespace Nes

namespace Machine

open Cpu

variable {β : Type} [Bus β]

theorem readList_of_shows {bus : β} {addr : UInt16} {n : Nat}
    (h : ∀ i < n, ∃ v, Bus.Shows bus (addr + UInt16.ofNat i) v) :
    (Bus.readList bus addr n).2 = bus := by
  unfold Bus.readList
  induction n generalizing addr with
  | zero => rfl
  | succ n ih =>
    obtain ⟨v, hv⟩ := h 0 (Nat.succ_pos n)
    have haddr : addr + UInt16.ofNat 0 = addr := UInt16.add_zero addr
    rw [haddr, Bus.Shows] at hv
    rw [Bus.listBy, hv]
    refine ih fun i hi => ?_
    have hnext : addr + UInt16.ofNat (i + 1) = addr + 1 + UInt16.ofNat i := by
      grind [UInt16.ofNat_add]
    rw [← hnext]
    exact h (i + 1) (Nat.succ_lt_succ hi)

/-- Where the bytes of an instruction can be read without effect, tracing it has none. -/
theorem stepTraced_of_shows {m : Machine β}
    (h : m.cpu.halted = false → ∀ i < (Instruction.ofOpcode m.fetch.1).length,
      ∃ v, Bus.Shows m.bus (m.cpu.pc + UInt16.ofNat i) v) :
    m.stepTraced.1.1 = m.step.1 ∧ m.stepTraced.2 = m.step.2 := by
  cases hhalted : m.cpu.halted with
  | true =>
    have hfetched : m.fetch.2.cpu.halted = true := hhalted
    rw [stepTraced, step]
    simp only [hfetched, ↓reduceIte, and_self]
  | false =>
    have hbytes := h hhalted
    have hpos : 0 < (Instruction.ofOpcode m.fetch.1).length := Mode.length_pos _
    obtain ⟨opcode, hopcode⟩ := hbytes 0 hpos
    have haddr : m.cpu.pc + UInt16.ofNat 0 = m.cpu.pc := UInt16.add_zero _
    rw [haddr] at hopcode
    have hfetch := fetch_of_shows hopcode
    rw [hfetch] at hbytes
    have hread := readList_of_shows hbytes
    rw [stepTraced, step, hfetch]
    simp only [hhalted, Bool.false_eq_true, ↓reduceIte, hread, and_self]

end Machine

namespace Console

open Cpu

variable {η : Type}

/-- The console without its trace. -/
def untraced (c : Console) : Console := { c with trace := none }

/-- The debugger of a host takes no notice of the trace. -/
def Host.Blind (h : Host η) : Prop :=
  ∀ d, h.debugger = some d → ∀ c s,
    d.consult c.untraced s = d.consult c s ∧ d.hold c.untraced s = d.hold c s

/-- The bytes of the next instruction can be read without effect. -/
def NextIsSilent (c : Console) : Prop :=
  c.cpu.halted = false → ∀ i < (Instruction.ofOpcode (c.system.read c.cpu.pc).1).length,
    c.system.Silent (c.cpu.pc + UInt16.ofNat i)

/-- If the next step executes an instruction, its bytes can be read without effect. -/
def StepIsSilent (c : Console) : Prop :=
  c.applyReset.dispatch.1 = 0 → c.applyReset.dispatch.2.NextIsSilent

variable (h : Host η) (c : Console) (s : η)

/-! ### The parts of a step do not look at the trace -/

theorem applyReset_untraced : c.untraced.applyReset = c.applyReset.untraced := by
  unfold applyReset
  split
  · next hreset =>
    rw [if_pos (show c.remote.resetRequested = true from hreset)]
    rfl
  · next hreset => rw [if_neg (show ¬c.remote.resetRequested = true from hreset)]

theorem dispatch_untraced : c.untraced.dispatch = (c.dispatch.1, c.dispatch.2.untraced) := by
  have hcpu : c.untraced.cpu = c.cpu := rfl
  rw [dispatch_eq, dispatch_eq, hcpu]
  split <;> rfl

theorem deliver_untraced :
    c.untraced.deliver h s =
      ((c.deliver h s).1, (c.deliver h s).2.1.untraced, (c.deliver h s).2.2) := by
  have hsystem : c.untraced.system = c.system := rfl
  have hremote : c.untraced.remote = c.remote := rfl
  rw [deliver_eq, deliver_eq, hsystem, hremote]
  by_cases hready : c.system.ppu.frameReady = true
  · rw [if_pos hready, if_pos hready]
    generalize h.onFrame c.system.ppu.front c.remote s = x
    obtain ⟨_ | _, remote, s'⟩ := x <;> rfl
  · rw [if_neg hready, if_neg hready]
    rfl

theorem complete_untraced (used : Nat) :
    c.untraced.complete h used s =
      ((c.complete h used s).1, (c.complete h used s).2.1.untraced, (c.complete h used s).2.2) := by
  have helapse : c.untraced.elapse used = ((c.elapse used).1, (c.elapse used).2.untraced) := rfl
  simp only [complete, helapse, deliver_untraced]

variable {h}

theorem consult_untraced (hblind : h.Blind) :
    c.untraced.consult h s =
      ((c.consult h s).1, (c.consult h s).2.1.untraced, (c.consult h s).2.2) := by
  unfold consult
  split
  · rfl
  · next d hd =>
    rw [(hblind d hd c s).1]
    obtain ⟨pauses, remote, s⟩ := d.consult c s
    cases pauses with
    | false => rfl
    | true =>
      have hhold := (hblind d hd
        { c with remote := remote.pause, pauseCycles := c.cycles } s).2
      simp only [untraced] at hhold
      simp only [untraced, ↓reduceIte, hhold]

variable {c}

theorem instruction_untraced (hsilent : c.NextIsSilent) :
    c.untraced.instruction = (c.instruction.1, c.instruction.2.untraced) := by
  have hshows : c.machine.cpu.halted = false →
      ∀ i < (Instruction.ofOpcode c.machine.fetch.1).length,
        ∃ v, Bus.Shows c.machine.bus (c.machine.cpu.pc + UInt16.ofNat i) v :=
    fun hgoes i hi => (hsilent hgoes i hi).shows
  obtain ⟨hresult, hmachine⟩ := Machine.stepTraced_of_shows hshows
  obtain ⟨machine, tvSystem, remote, cycles, pauseCycles, trace⟩ := c
  cases trace with
  | none => rfl
  | some lines =>
    simp only [instruction, untraced, hresult, hmachine]

/-! ### Steps -/

theorem nextIsSilent_untraced : c.untraced.NextIsSilent = c.NextIsSilent := rfl

theorem stepIsSilent_untraced : c.untraced.StepIsSilent = c.StepIsSilent := by
  rw [StepIsSilent, applyReset_untraced, dispatch_untraced, nextIsSilent_untraced, StepIsSilent]

/-- A debugger does not change what the next instruction is. -/
theorem nextIsSilent_consult (h : Host η) (hsilent : c.NextIsSilent) :
    (c.consult h s).2.1.NextIsSilent := by
  obtain ⟨remote, pauseCycles, heq⟩ := c.consult_eq h s
  rw [heq]
  exact hsilent

theorem step_untraced (hblind : h.Blind) (hsilent : c.StepIsSilent) :
    c.untraced.step h s = ((c.step h s).1, (c.step h s).2.1.untraced, (c.step h s).2.2) := by
  rw [StepIsSilent] at hsilent
  unfold step
  rw [applyReset_untraced]
  dsimp only
  rw [dispatch_untraced]
  generalize c.applyReset.dispatch = r at hsilent
  obtain ⟨used, c⟩ := r
  dsimp only at hsilent ⊢
  by_cases hused : used ≠ 0
  · rw [if_pos hused, if_pos hused, complete_untraced]
  · have hnext := nextIsSilent_consult s h (hsilent (Decidable.not_not.1 hused))
    rw [if_neg hused, if_neg hused, consult_untraced c s hblind]
    generalize c.consult h s = r at hnext
    obtain ⟨goes, c, s⟩ := r
    dsimp only at hnext ⊢
    cases goes with
    | false => rfl
    | true =>
      rw [instruction_untraced hnext]
      generalize c.instruction = r
      obtain ⟨_ | used, c⟩ := r
      · rfl
      · exact c.complete_untraced h s used

/-- Consoles that differ in the trace alone take the same step. -/
theorem step_of_untraced_eq (hblind : h.Blind) {c' : Console} (hc : c'.untraced = c.untraced)
    (hsilent : c.StepIsSilent) :
    (c'.step h s).1 = (c.step h s).1 ∧
      (c'.step h s).2.1.untraced = (c.step h s).2.1.untraced ∧
      (c'.step h s).2.2 = (c.step h s).2.2 := by
  have hsilent' : c'.StepIsSilent := by
    rw [← stepIsSilent_untraced, hc, stepIsSilent_untraced]
    exact hsilent
  have hstep := step_untraced s hblind hsilent
  rw [← hc, step_untraced s hblind hsilent'] at hstep
  obtain ⟨hresult, hstep⟩ := Prod.mk.inj hstep
  exact ⟨hresult, Prod.mk.inj hstep⟩

/-- **A trace only observes what can be read without effect.**  If, along a run without a trace or
with any, the bytes of every instruction that is executed lie where reads have no effect, then the
run with any other trace gives the same results, leads to the same console but for the trace, and to
the same host. -/
theorem trace_observes (hblind : h.Blind) (c : Console) (s : η) (n : Nat)
    (hsilent : ∀ k < n, (c.after h s k).1.StepIsSilent) (trace : Option (Array String)) :
    let c' := { c with trace }
    (∀ k < n, ((c'.after h s k).1.step h (c'.after h s k).2).1 =
      ((c.after h s k).1.step h (c.after h s k).2).1) ∧
    (c'.after h s n).1.untraced = (c.after h s n).1.untraced ∧
    (c'.after h s n).2 = (c.after h s n).2 := by
  intro c'
  have hc : c'.untraced = c.untraced := rfl
  generalize c' = c' at hc
  induction n generalizing c c' s with
  | zero => exact ⟨fun k hk => absurd hk (Nat.not_lt_zero k), hc, rfl⟩
  | succ n ih =>
    obtain ⟨hresult, hnext, hhost⟩ :=
      step_of_untraced_eq s hblind hc (hsilent 0 (Nat.succ_pos n))
    obtain ⟨hresults, hlast⟩ := ih (c.step h s).2.1 (c.step h s).2.2
      (fun k hk => hsilent (k + 1) (Nat.succ_lt_succ hk)) (c'.step h s).2.1 hnext
    rw [after, after, hhost]
    refine ⟨fun k hk => ?_, hlast⟩
    cases k with
    | zero => exact hresult
    | succ k =>
      rw [after, after, hhost]
      exact hresults k (Nat.lt_of_succ_lt_succ hk)

/-- A program without effect, traced and not. -/
theorem trace_observes_nop :
    ∃ cart c,
      Cartridge.ofBytes (smallImage 0 #[0xEA, 0, 0, 0, 0x00, 0x80, 0, 0]) = .ok cart ∧
      powerOn cart {} = .ok c ∧
      ({ c with trace := some #[] }.after Host.silent () 1).1.untraced =
        (c.after Host.silent () 1).1.untraced := by
  have hpower : ∃ cart c,
      Cartridge.ofBytes (smallImage 0 #[0xEA, 0, 0, 0, 0x00, 0x80, 0, 0]) = .ok cart ∧
      powerOn cart {} = .ok c ∧ c.remote.resetRequested = false ∧ c.system.ppu.nmi = false ∧
      c.system.irq = false ∧ c.cpu.pc = 0x8000 ∧ (c.system.read 0x8000).1 = 0xEA :=
    ⟨_, _, rfl, rfl, rfl, rfl, rfl, rfl, rfl⟩
  obtain ⟨cart, c, hcart, hc, hreset, hnmi, hirq, hpc, hread⟩ := hpower
  have hsilent : c.StepIsSilent := by
    rw [StepIsSilent, applyReset_eq_self hreset, dispatch_of_masked hnmi fun hrequested => by
      rw [hirq] at hrequested; cases hrequested]
    intro _ _ i hi
    rw [hpc, hread] at hi
    have hzero : i = 0 := Nat.lt_one_iff.1 hi
    rw [hpc, hzero]
    exact Or.inl (Or.inr (by decide))
  have hblind : (Host.silent).Blind := fun d hd => nomatch hd
  refine ⟨cart, c, hcart, hc, (trace_observes hblind c () 1 (fun k hk => ?_) (some #[])).2.1⟩
  rw [Nat.lt_one_iff.1 hk]
  exact hsilent

/-- A trace moves the buttons of a controller on that an instruction is fetched from. -/
theorem trace_disturbs :
    ∃ cart c, Cartridge.ofBytes copyingImage = .ok cart ∧ powerOn cart {} = .ok c ∧
      let m : Machine System := ⟨{ c.cpu with pc := 0x4016 }, c.system⟩
      m.step.1 = .ok 6 ∧ m.stepTraced.1.1 = .ok 6 ∧
        m.step.2.bus.pad1.shift = 0x80 ∧ m.stepTraced.2.bus.pad1.shift = 0xC0 :=
  ⟨_, _, rfl, rfl, rfl, rfl, rfl, rfl⟩

end Console

end Nes
