import Nes.Proofs.Console.Boundary
import Nes.Proofs.Ppu.Strokes
import Nes.Proofs.System.Nmi

/-!
# Each edge leads to one interrupt

`Watched edges entries c` is a run to the console `c` in which no reset is requested and the
processor has not stopped.  For each of its steps it tells how often the picture unit began to want
an interrupt, and how often the processor entered the handler of this interrupt.

A step asks for the latch once, at its start, and has one edge at most after that
(`Console.nmi_step`).  So the entries are the edges, each one step later: none is lost, and none is
answered twice (`Console.nmi_once`).
-/

namespace Nes

namespace Console

open Nes.System Nes.Ppu

variable {η : Type} (h : Host η) {c : Console} (s : η)

/-! ### A console from power-on -/

theorem timely_resetBus {m : Machine System} (hm : Timely m.bus.ppu) : Timely m.reset.bus.ppu := by
  rw [← Machine.foldl_resetAccesses, ← replay_accessesDeeds]
  exact timely_replay hm _

theorem Reachable.timely (hc : Reachable c) : Timely c.system.ppu := by
  induction hc with
  | powerOn h =>
    obtain ⟨rate, hz, board, hm, _⟩ := powerOn_cases h
    rw [system, hm]
    exact timely_resetBus Timely.powerOn
  | step _ h s ih =>
    rw [← replay_deeds]
    exact timely_replay ih _
  | handled _ h ih =>
    obtain ⟨_, _, player, notices, hsystem⟩ := h.cases
    rw [hsystem]
    exact ih

theorem nmi_powerOn {cart : Cartridge} {config : Config} (h : powerOn cart config = .ok c) :
    c.system.ppu.nmi = false := by
  obtain ⟨rate, hz, board, hm, _⟩ := powerOn_cases h
  have hquiet := isQuiet_resetAccesses
    ⟨Cpu.powerOn, ({ apu := Apu.powerOn rate hz, board } : System)⟩
  rw [system, hm, ← Machine.foldl_resetAccesses, ← replay_accessesDeeds,
    nmi_replay Timely.powerOn, edges_quiet _ hquiet]
  · rfl
  · intro d hd
    have := hquiet d hd
    cases d <;> first | rfl | exact this.elim

/-! ### A step -/

/-- A step starts with the question for the latch, and enters the handler if it is set. -/
theorem dispatch_nmi (hgoes : c.cpu.halted = false) :
    c.system.ppu.nmi = true ∧
        c.dispatch = (7, { c with machine := (c.polled.interrupt .nmi).2 }) ∨
      c.system.ppu.nmi = false ∧
        (c.dispatch = (0, { c with machine := c.polled }) ∨
          c.dispatch =
            ((c.polled.interrupt .irq).1, { c with machine := (c.polled.interrupt .irq).2 })) := by
  rw [dispatch_eq, hgoes, if_neg Bool.false_ne_true, served]
  cases hnmi : c.system.ppu.nmi with
  | true => exact Or.inl ⟨rfl, rfl⟩
  | false =>
    refine Or.inr ⟨rfl, ?_⟩
    rw [if_neg Bool.false_ne_true]
    split
    · exact Or.inr rfl
    · exact Or.inl rfl

/-- The question for the latch clears it, and is no edge. -/
theorem replay_edges_pollDeeds (hgoes : c.cpu.halted = false) :
    (c.system.replay c.pollDeeds).ppu.nmi = false ∧ c.system.edges c.pollDeeds = 0 ∧
      c.pollDeeds.countP Deed.isNmi = c.system.ppu.nmi.toNat := by
  have hpoll : c.pollDeeds = .poll :: if c.system.ppu.nmi then [.nmi] else [] := by
    rw [pollDeeds, hgoes, if_neg Bool.false_ne_true]
  rw [hpoll]
  cases c.system.ppu.nmi with
  | false =>
    refine ⟨rfl, edges_eq_zero _ fun d hd q => ?_, rfl⟩
    rw [List.mem_singleton.1 hd]
    exact Bool.not_and_self _
  | true =>
    refine ⟨rfl, edges_eq_zero _ fun d hd q => ?_, rfl⟩
    rcases List.mem_cons.1 hd with rfl | hd
    · exact Bool.not_and_self _
    · rw [List.mem_singleton.1 hd]
      exact Bool.not_and_self _

/-- What follows the question for the latch sets it, if there is an edge. -/
theorem after_poll (hc : Timely c.system.ppu) (hgoes : c.cpu.halted = false) {ds : List Deed}
    (hds : ∀ d ∈ ds, d.clears = false ∧ d.isNmi = false)
    (hone : (c.system.replay c.pollDeeds).edges ds ≤ 1) :
    c.system.edges (c.pollDeeds ++ ds) ≤ 1 ∧
      (c.system.replay (c.pollDeeds ++ ds)).ppu.nmi.toNat = c.system.edges (c.pollDeeds ++ ds) ∧
      (c.pollDeeds ++ ds).countP Deed.isNmi = c.system.ppu.nmi.toNat := by
  obtain ⟨hclear, hnone, hcount⟩ := replay_edges_pollDeeds hgoes
  have hentries : ds.countP Deed.isNmi = 0 :=
    List.countP_eq_zero.2 fun d hd => Bool.eq_false_iff.1 (hds d hd).2
  rw [edges_append, hnone, Nat.zero_add, List.countP_append, hcount, hentries, replay_append,
    nmi_replay (timely_replay hc _) fun d hd => (hds d hd).1, hclear, Bool.false_or]
  refine ⟨hone, ?_, rfl⟩
  have hcases : (c.system.replay c.pollDeeds).edges ds = 0 ∨
      (c.system.replay c.pollDeeds).edges ds = 1 := by omega
  rcases hcases with h0 | h1
  · rw [h0]
    rfl
  · rw [h1]
    rfl

/-- A step has one edge at most, which sets the latch; it enters the handler if the latch was
set. -/
theorem nmi_step (hc : Reachable c) (hno : c.remote.resetRequested = false)
    (hgoes : c.cpu.halted = false) :
    c.system.edges (c.deeds h s) ≤ 1 ∧
      (c.step h s).2.1.system.ppu.nmi.toNat = c.system.edges (c.deeds h s) ∧
      (c.deeds h s).countP Deed.isNmi = c.system.ppu.nmi.toNat := by
  have hreset : c.resetDeeds = [] := by
    rw [resetDeeds, hno, if_neg Bool.false_ne_true]
  have hself := applyReset_eq_self hno
  have hpolled := timely_replay hc.timely c.pollDeeds
  have hrested : ∀ {ds c'}, Rested c ds c' →
      (∀ d ∈ ds, d.clears = false ∧ d.isNmi = false) ∧
        (c.system.replay c.pollDeeds).edges ds ≤ 1 := fun hr =>
    ⟨fun d hd => Deed.clears_of_isAccess (hr.quiet d hd).isAccess,
      Nat.le_trans (Nat.le_of_eq (edges_quiet _ hr.quiet)) (Nat.zero_le 1)⟩
  rw [← replay_deeds]
  rcases c.step_cases h s with ⟨ds, used, c', s', hw, _, hds⟩ | ⟨ds, j, c', s', hr, _, _, hds⟩ |
    ⟨ds, c', s', hr, _, _, _, hds⟩
  · rw [hself] at hw hds
    rw [hds, hreset, List.nil_append]
    obtain ⟨⟨f, hpasses, _⟩, _, hpassing⟩ := c'.passes_completeDeeds h s' used
    obtain ⟨_, hle, _⟩ := hw.completed h s' hc.settled
    have hdots := hpasses.dots
    refine after_poll hc.timely hgoes (fun d hd => ?_)
      (edges_le_one hpolled hw.accessing hpassing (by omega))
    rcases List.mem_append.1 hd with hd | hd
    · exact Deed.clears_of_isAccess (hw.accessing.isAccess d hd)
    · exact Deed.clears_of_isPassing (hpassing d hd)
  · rw [hself] at hr hds
    rw [hds, hreset, List.nil_append]
    exact after_poll hc.timely hgoes (hrested hr).1 (hrested hr).2
  · rw [hself] at hr hds
    rw [hds, hreset, List.nil_append]
    exact after_poll hc.timely hgoes (hrested hr).1 (hrested hr).2

/-! ### A run -/

/-- A run from a console whose latch is clear, with the edges and the entries in each of its steps.
No reset is requested, and the processor has not stopped. -/
inductive Watched : (edges entries : List Nat) → Console → Prop
  /-- The run begins. -/
  | start {c : Console} (hc : Reachable c) (hnmi : c.system.ppu.nmi = false) : Watched [] [] c
  /-- Something is done to the console between two steps. -/
  | handled {edges entries : List Nat} {c c' : Console} (hc : Watched edges entries c)
    (h : Handled c c') : Watched edges entries c'
  /-- The console takes a step. -/
  | step {edges entries : List Nat} {c : Console} (hc : Watched edges entries c)
    (hno : c.remote.resetRequested = false) (hgoes : c.cpu.halted = false) {η : Type} (h : Host η)
    (s : η) :
    Watched (edges ++ [c.system.edges (c.deeds h s)])
      (entries ++ [(c.deeds h s).countP Deed.isNmi]) (c.step h s).2.1

theorem Watched.reachable {edges entries : List Nat} (hc : Watched edges entries c) :
    Reachable c := by
  induction hc with
  | start hc _ => exact hc
  | handled _ h ih => exact ih.handled h
  | step _ _ _ h s ih => exact ih.step h s

/-- The edges of a run are its entries, one step later, and the latch. -/
theorem Watched.entries_eq {edges entries : List Nat} (hc : Watched edges entries c) :
    entries ++ [c.system.ppu.nmi.toNat] = 0 :: edges ∧ ∀ e ∈ edges, e ≤ 1 := by
  induction hc with
  | start _ hnmi =>
    rw [hnmi]
    exact ⟨rfl, fun e he => absurd he List.not_mem_nil⟩
  | handled _ h ih =>
    obtain ⟨_, _, player, notices, hsystem⟩ := h.cases
    rw [hsystem]
    exact ih
  | step hc hno hgoes h s ih =>
    obtain ⟨hone, hlatch, hcount⟩ := nmi_step h s hc.reachable hno hgoes
    rw [hlatch, hcount, ih.1]
    refine ⟨rfl, fun e he => ?_⟩
    rcases List.mem_append.1 he with he | he
    · exact ih.2 e he
    · rw [List.mem_singleton.1 he]
      exact hone

/-- **Each edge leads to one interrupt.**  However dots, accesses, copies and questions for the
latch come one after the other, the latch is set if and only if the condition has begun to hold
since it was last asked for or reset, and the flag of the blank is clear when the blank starts.  In
a run of the console from power-on, or from any other boundary at which the latch is clear, a step
has one edge at most, and the steps that enter the handler are those that follow a step with an
edge. -/
theorem nmi_once :
    (∀ {γ : Type} [PictureBus γ] (before since : List (Op γ)), Op.Cleared before →
      (∀ op ∈ since, op.clears = false) →
      ((Ppu.powerOn.run (before ++ since)).pollNmi.1 = true ↔
        ∃ ops, ∃ op : Op γ, ∃ rest, since = ops ++ op :: rest ∧
          op.rises (Ppu.powerOn.run (before ++ ops)) = true)) ∧
    (∀ {γ : Type} [PictureBus γ] (ops : List (Op γ)),
      (Ppu.powerOn.run ops).beam.entersVblank = true →
        (Ppu.powerOn.run ops).status.vblank = false) ∧
    (∀ cart config c, powerOn cart config = .ok c → Watched [] [] c) ∧
    (∀ edges entries c, Watched edges entries c →
      entries ++ [c.system.ppu.nmi.toNat] = 0 :: edges ∧ ∀ e ∈ edges, e ≤ 1) ∧
    ∀ {η : Type} (h : Host η) (c : Console) (s : η), Reachable c →
      c.remote.resetRequested = false → c.cpu.halted = false →
      (c.deeds h s).countP Deed.isNmi = 1 ∧
          c.dispatch = (7, { c with machine := (c.polled.interrupt .nmi).2 }) ∨
        (c.deeds h s).countP Deed.isNmi = 0 ∧
          (c.dispatch = (0, { c with machine := c.polled }) ∨
            c.dispatch = ((c.polled.interrupt .irq).1,
              { c with machine := (c.polled.interrupt .irq).2 })) := by
  refine ⟨?_, ?_, ?_, ?_, ?_⟩
  · intro γ _ before since hbefore hsince
    have hnmi := (Timely.powerOn.run before).nmi_run hsince
    rw [nmi_cleared hbefore, ← run_append] at hnmi
    simp only [Bool.false_eq_true, false_or, ← run_append] at hnmi
    exact hnmi
  · intro γ _ ops he
    exact (Timely.powerOn.run ops).vblank_of_entersVblank he
  · intro cart config c hc
    exact .start (.powerOn hc) (nmi_powerOn hc)
  · intro edges entries c hc
    exact hc.entries_eq
  · intro η h c s hc hno hgoes
    obtain ⟨_, _, hcount⟩ := nmi_step h s hc hno hgoes
    rw [hcount]
    rcases dispatch_nmi hgoes with ⟨hnmi, hdispatch⟩ | ⟨hnmi, hdispatch⟩
    · rw [hnmi]
      exact Or.inl ⟨rfl, hdispatch⟩
    · rw [hnmi]
      exact Or.inr ⟨rfl, hdispatch⟩

/-- With the interrupt enabled, the latch is clear up to the start of the blank, and set by it.  The
first step of a program enters no handler, and the latch after it tells whether it had an edge. -/
theorem nmi_once_enabled :
    ∃ cart c, Cartridge.ofBytes copyingImage = .ok cart ∧ powerOn cart {} = .ok c ∧
      (∃ n, ∃ enable tick : Op Board, enable = .write c.system.board 0 0x80 ∧
        tick = .tick c.system.board ∧
        (Ppu.powerOn.run (enable :: List.replicate n tick)).pollNmi.1 = false ∧
        (Ppu.powerOn.run (enable :: List.replicate n tick)).status.vblank = false ∧
        (Ppu.powerOn.run (enable :: List.replicate n tick ++ [tick])).pollNmi.1 = true) ∧
      (c.deeds Host.silent ()).countP Deed.isNmi = 0 ∧
      (c.step Host.silent ()).2.1.system.ppu.nmi.toNat =
        c.system.edges (c.deeds Host.silent ()) := by
  have hstart : ∃ cart c, Cartridge.ofBytes copyingImage = .ok cart ∧ powerOn cart {} = .ok c ∧
      c.remote.resetRequested = false ∧ c.cpu.halted = false := ⟨_, _, rfl, rfl, rfl, rfl⟩
  obtain ⟨cart, c, hcart, hc, hno, hgoes⟩ := hstart
  obtain ⟨hpoll, hclear, hpower, hwatched, -⟩ := nmi_once
  have hstep := (hpower cart {} c hc).step hno hgoes Host.silent ()
  obtain ⟨hentry, hlatch⟩ := List.cons.inj (hwatched _ _ _ hstep).1
  refine ⟨cart, c, hcart, hc, ?_, hentry, (List.cons.inj hlatch).1⟩
  let enable : Op Board := .write c.system.board 0 0x80
  let tick : Op Board := .tick c.system.board
  have henabled : Timely (enable.act Ppu.powerOn) := Timely.powerOn.act enable
  obtain ⟨n, hstarts, hnone⟩ := henabled.exists_completes c.system.board
  have hcontrol : (enable.act Ppu.powerOn).control = ⟨0x80⟩ := rfl
  have hrises : tick.rises (Ppu.powerOn.run (enable :: List.replicate n tick)) = true := by
    rw [run_cons, (henabled.run _).rises_tick, control_run_replicate, hcontrol, Bool.and_eq_true]
    exact ⟨hstarts, by decide⟩
  refine ⟨n, enable, tick, rfl, rfl, ?_, hclear _ hstarts, ?_⟩
  · exact nmi_run_replicate hnone
  · refine (hpoll [] (enable :: List.replicate n tick ++ [tick]) (Or.inl rfl) fun op hop => ?_).2
      ⟨enable :: List.replicate n tick, tick, [], rfl, hrises⟩
    simp only [List.cons_append, List.mem_cons, List.mem_append, List.mem_replicate,
      List.not_mem_nil, or_false] at hop
    rcases hop with rfl | ⟨-, rfl⟩ | rfl <;> rfl

end Console

end Nes
