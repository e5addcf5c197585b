import Nes.Proofs.Console.Boundary

/-!
# The cycle ledger

A `Ledger` counts what happens since power-on or the last reset: the cycles that steps have told,
and the dots, ticks, fetches and copies among the deeds of these steps.  `Ran l c` is a run to the
console `c` with the ledger `l`, in which steps may fail because the processor stops.

Three counts of cycles are kept in different places, by the console, by the system and by the
processor.  At every boundary they agree with the ledger (`Ran.balanced`): each cycle is one tick of
the sound unit, one cycle of the board and three dots, and what the console counts beyond the
processor went to copies and fetches.  The deeds that a step puts into the ledger are what it does to the
system: replaying them leads to the system after it.  A failing step counts nothing.
-/

namespace Nes.Console

open Nes.System

/-- What has happened since power-on or the last reset. -/
structure Ledger where
  /-- The cycles that the system had counted before. -/
  start : Nat
  /-- The cycles that steps have told. -/
  told : Nat := 0
  /-- The dots of the picture. -/
  dots : Nat := 0
  /-- The ticks of the sound unit. -/
  sounds : Nat := 0
  /-- The cycles of the board. -/
  clocks : Nat := 0
  /-- The bytes of samples that were fetched. -/
  fetches : Nat := 0
  /-- The cycles that copies have cost. -/
  copies : Nat := 0
deriving DecidableEq

namespace Ledger

/-- Some deeds, which start from a system. -/
def record (l : Ledger) (b : System) (ds : List Deed) : Ledger :=
  { l with
    dots := l.dots + ds.countP Deed.isDot
    sounds := l.sounds + ds.countP Deed.isSound
    clocks := l.clocks + ds.countP Deed.isClock
    fetches := l.fetches + ds.countP Deed.isFetch
    copies := l.copies + b.copyCycles ds }

/-- The cycles that a step tells. -/
def tell (l : Ledger) (n : Nat) : Ledger := { l with told := l.told + n }

/-- A reset that was requested starts the ledger over. -/
def applyReset (l : Ledger) (c : Console) : Ledger :=
  if c.remote.resetRequested then { start := c.applyReset.system.cycles } else l

/-- The counts of the console, of its system and of its processor agree with the ledger. -/
structure Balanced (l : Ledger) (c : Console) : Prop where
  /-- The console counts the cycles that steps have told. -/
  told : c.cycles = l.told
  /-- The system has counted on by as many. -/
  grown : c.system.cycles = l.start + c.cycles
  /-- So often has the sound unit ticked. -/
  sounds : l.sounds = c.cycles
  /-- So many cycles has the board seen. -/
  clocks : l.clocks = c.cycles
  /-- Three times as often has the picture unit ticked. -/
  dots : l.dots = 3 * c.cycles
  /-- The processor counts on from seven. -/
  seven_le : 7 ≤ c.cpu.cycles
  /-- What it does not count, it has waited for copies and fetches. -/
  waited : c.cycles = c.cpu.cycles - 7 + (l.copies + 4 * l.fetches)

end Ledger

/-- A run to a console, with the ledger of what has happened in it.  A step returns with its cycles
or, at an instruction that stops the processor, with a failure; a step whose callback fails does not
return, and ends the run. -/
inductive Ran : Ledger → Console → Prop
  /-- Power is turned on. -/
  | powerOn {cart : Cartridge} {config : Config} {c : Console} (h : powerOn cart config = .ok c) :
    Ran { start := c.system.cycles } c
  /-- Something is done to the console between two steps. -/
  | handled {l : Ledger} {c c' : Console} (hc : Ran l c) (h : Handled c c') : Ran l c'
  /-- A step tells its cycles. -/
  | step {l : Ledger} {c : Console} (hc : Ran l c) {η : Type} {h : Host η} {s : η} {n : Nat}
    (hn : (c.step h s).1 = .ok n) :
    Ran (((l.applyReset c).record c.applyReset.system (c.applyReset.deeds h s)).tell n)
      (c.step h s).2.1
  /-- A step fails. -/
  | jam {l : Ledger} {c : Console} (hc : Ran l c) {η : Type} {h : Host η} {s : η} {j : Cpu.Jam}
    (hj : (c.step h s).1 = .error (.jam j)) :
    Ran ((l.applyReset c).record c.applyReset.system (c.applyReset.deeds h s)) (c.step h s).2.1

theorem Ran.reachable {l : Ledger} {c : Console} (hc : Ran l c) : Reachable c := by
  induction hc with
  | powerOn h => exact .powerOn h
  | handled _ h ih => exact ih.handled h
  | step _ _ ih => exact ih.step _ _
  | jam _ _ ih => exact ih.step _ _

namespace Ledger

variable {l : Ledger} {c : Console}

theorem record_of_passes {b : System} {ds : List Deed} (hp : Deed.Passes ds 0 0)
    (hc : b.copyCycles ds = 0) : l.record b ds = l := by
  rw [record, hp.dots, hp.sounds, hp.clocks, hp.fetches, hc]
  rfl

/-- A reset at the start leaves the ledger empty. -/
theorem applyReset_start (start : Nat) (c : Console) :
    ∃ start', Ledger.applyReset { start := start } c = { start := start' } := by
  unfold Ledger.applyReset
  split
  · exact ⟨_, rfl⟩
  · exact ⟨start, rfl⟩

/-- The ledger at the start. -/
theorem Balanced.start (hcycles : c.cycles = 0) (hcpu : c.cpu.cycles = 7) :
    Balanced { start := c.system.cycles } c := by
  constructor <;> simp only [hcycles, hcpu] <;> omega

theorem Balanced.powerOn {cart : Cartridge} {config : Config}
    (h : Console.powerOn cart config = .ok c) : Balanced { start := c.system.cycles } c := by
  obtain ⟨rate, hz, board, hm, hcycles, _⟩ := powerOn_cases h
  refine Balanced.start hcycles ?_
  rw [cpu, hm]
  rfl

theorem Balanced.handled {c' : Console} (hl : l.Balanced c) (h : Handled c c') : l.Balanced c' := by
  obtain ⟨hcpu, hcycles, player, notices, hsystem⟩ := h.cases
  have hgrown : c'.system.cycles = c.system.cycles := by rw [hsystem]
  obtain ⟨h1, h2, h3, h4, h5, h6, h7⟩ := hl
  constructor <;> simp only [hcpu, hcycles, hgrown] <;> assumption

theorem Balanced.applyReset (hl : l.Balanced c) : (l.applyReset c).Balanced c.applyReset := by
  unfold Ledger.applyReset
  by_cases hreset : c.remote.resetRequested = true
  · have hafter : c.applyReset =
        { c with remote := { c.remote with resetRequested := false } }.softReset := if_pos hreset
    rw [if_pos hreset]
    refine Balanced.start ?_ ?_
    · rw [hafter]
      rfl
    · rw [hafter]
      rfl
  · rw [if_neg hreset, applyReset_eq_self (Bool.eq_false_iff.2 hreset)]
    exact hl

end Ledger

variable {η : Type} (h : Host η) {c : Console} (s : η)

/-- What a step counts after a reset that may have been requested: `n` cycles pass, and the
processor counts those of them that it does not wait.  A step in which the processor stops counts
nothing. -/
theorem step_counts (hc : Settled c.system) :
    ∃ n f, Deed.Passes (c.applyReset.deeds h s) n f ∧
      (c.step h s).2.1.cycles = c.applyReset.cycles + n ∧
      c.applyReset.cpu.cycles ≤ (c.step h s).2.1.cpu.cycles ∧
      (c.step h s).2.1.cpu.cycles +
          c.applyReset.system.copyCycles (c.applyReset.deeds h s) + 4 * f =
        c.applyReset.cpu.cycles + n ∧
      ((c.step h s).1 = .ok n ∨ (∃ text, (c.step h s).1 = .error (.callbackFailed text)) ∨
        ∃ j, (c.step h s).1 = .error (.jam j) ∧ n = 0 ∧ f = 0 ∧
          c.applyReset.system.copyCycles (c.applyReset.deeds h s) = 0) := by
  have hdeeds := c.deeds_eq h s
  rcases c.step_cases h s with ⟨ds, used, c', s', hw, hstep, hds⟩ |
    ⟨ds, j, c', s', hr, hstep, _, hds⟩ | ⟨ds, c', s', hr, hstep, _, _, hds⟩
  · rw [hds] at hdeeds
    rw [← List.append_cancel_left hdeeds, hstep]
    obtain ⟨⟨f, hpasses, htotal⟩, _⟩ := hw.completed h s' hc.applyReset
    obtain ⟨remote, hcomplete, hresult⟩ := c'.complete_cases h s' used
    have hspent : (c'.complete h used s').2.1.cpu.cycles = c.applyReset.cpu.cycles + used := by
      rw [hcomplete, ← hw.spent]
      rfl
    refine ⟨(c'.elapse used).1, f, hpasses, ?_, by omega, ?_, ?_⟩
    · rw [hcomplete, ← hw.cycles]
    · rw [hspent]
      omega
    · rcases hresult with hok | hfailed
      · exact Or.inl hok
      · exact Or.inr (Or.inl hfailed)
  · rw [hds] at hdeeds
    rw [← List.append_cancel_left hdeeds, hstep]
    obtain ⟨hpasses, hcopies, _⟩ := hr.passes hc.applyReset
    refine ⟨0, 0, hpasses, hr.cycles, Nat.le_of_eq hr.spent.symm, ?_,
      Or.inr (Or.inr ⟨j, rfl, rfl, rfl, hcopies⟩)⟩
    rw [hcopies]
    exact hr.spent
  · rw [hds] at hdeeds
    rw [← List.append_cancel_left hdeeds, hstep]
    obtain ⟨hpasses, hcopies, _⟩ := hr.passes hc.applyReset
    refine ⟨0, 0, hpasses, hr.cycles, Nat.le_of_eq hr.spent.symm, ?_, Or.inl rfl⟩
    rw [hcopies]
    exact hr.spent

theorem system_cycles_step : (c.step h s).2.1.system.cycles =
    c.applyReset.system.cycles + (c.applyReset.deeds h s).countP Deed.isClock := by
  rw [← step_applyReset, ← replay_deeds, cycles_replay]

/-- A step in which the processor stops leaves the counts alone. -/
structure Uncounted (c : Console) (ds : List Deed) (c' : Console) : Prop where
  /-- The console has counted nothing. -/
  cycles : c'.cycles = c.cycles
  /-- The system has not. -/
  grown : c'.system.cycles = c.system.cycles
  /-- Neither has the processor. -/
  spent : c'.cpu.cycles = c.cpu.cycles
  /-- There is nothing for the ledger. -/
  ledger : ∀ l : Ledger, l.record c.system ds = l

theorem uncounted_of_jam (hc : Settled c.system) {j : Cpu.Jam}
    (hj : (c.step h s).1 = .error (.jam j)) :
    Uncounted c.applyReset (c.applyReset.deeds h s) (c.step h s).2.1 := by
  obtain ⟨n, f, hpasses, hcycles, _, hspent, hresult⟩ := step_counts h s hc
  rw [hj] at hresult
  rcases hresult with hok | ⟨text, hfailed⟩ | ⟨j', _, rfl, rfl, hcopies⟩
  · cases hok
  · cases hfailed
  · refine ⟨hcycles, ?_, by omega, fun l => l.record_of_passes hpasses hcopies⟩
    rw [system_cycles_step, hpasses.clocks, Nat.add_zero]

theorem Ledger.Balanced.step {l : Ledger} (hl : l.Balanced c) (hc : Settled c.system) {n : Nat}
    (hn : (c.step h s).1 = .ok n) :
    (((l.applyReset c).record c.applyReset.system (c.applyReset.deeds h s)).tell n).Balanced
      (c.step h s).2.1 := by
  obtain ⟨n', f, hpasses, hcycles, hle, hspent, hresult⟩ := step_counts h s hc
  have hsame : n' = n := by
    rw [hn] at hresult
    rcases hresult with hok | ⟨text, hfailed⟩ | ⟨j, hjam, _⟩
    · cases hok
      rfl
    · cases hfailed
    · cases hjam
  subst hsame
  obtain ⟨htold, hgrown, hsounds, hclocks, hdots, hseven, hwaited⟩ := hl.applyReset
  have hsystem := system_cycles_step (c := c) h s
  rw [hpasses.clocks] at hsystem
  refine ⟨?_, ?_, ?_, ?_, ?_, by omega, ?_⟩
  all_goals
    simp only [tell, record, hpasses.dots, hpasses.sounds, hpasses.clocks, hpasses.fetches]
    omega

theorem Ledger.Balanced.jam {l : Ledger} (hl : l.Balanced c) (hc : Settled c.system) {j : Cpu.Jam}
    (hj : (c.step h s).1 = .error (.jam j)) :
    ((l.applyReset c).record c.applyReset.system (c.applyReset.deeds h s)).Balanced
      (c.step h s).2.1 := by
  obtain ⟨hcycles, hgrown, hspent, hledger⟩ := uncounted_of_jam h s hc hj
  rw [hledger]
  obtain ⟨h1, h2, h3, h4, h5, h6, h7⟩ := hl.applyReset
  constructor <;> simp only [hcycles, hgrown, hspent] <;> assumption

/-- **The counts of cycles agree.**  At every boundary of a run the ledger is balanced.  What the
next step puts into it is what this step does: replaying its deeds leads to the system after the
step, from the system before it or, without those of a reset that was requested, from the system
after that reset.  A step in which the processor stops counts nothing, apart from the reset that it
may start with. -/
theorem Ran.balanced {l : Ledger} (hc : Ran l c) :
    l.Balanced c ∧
    ∀ {η : Type} (h : Host η) (s : η),
      c.system.replay (c.deeds h s) = (c.step h s).2.1.system ∧
      c.applyReset.system.replay (c.applyReset.deeds h s) = (c.step h s).2.1.system ∧
      ∀ j : Cpu.Jam, (c.step h s).1 = .error (.jam j) →
        Uncounted c.applyReset (c.applyReset.deeds h s) (c.step h s).2.1 := by
  refine ⟨?_, fun h s => ⟨c.replay_deeds h s, ?_, fun j hj =>
    uncounted_of_jam h s hc.reachable.settled hj⟩⟩
  · induction hc with
    | powerOn h => exact .powerOn h
    | handled _ h ih => exact ih.handled h
    | step hc hn ih => exact Ledger.Balanced.step _ _ ih hc.reachable.settled hn
    | jam hc hj ih => exact Ledger.Balanced.jam _ _ ih hc.reachable.settled hj
  · rw [replay_deeds, step_applyReset]

/-- A step with a copy, and a program whose first instruction stops the processor. -/
theorem balanced_copying :
    (∃ cart c l, Cartridge.ofBytes copyingImage = .ok cart ∧ powerOn cart {} = .ok c ∧
      l.copies = 513 ∧ 517 ≤ l.told ∧ Ledger.Balanced l (c.step Host.silent ()).2.1 ∧
      c.system.replay (c.deeds Host.silent ()) = (c.step Host.silent ()).2.1.system) ∧
    ∃ cart c j, Cartridge.ofBytes jammingImage = .ok cart ∧ powerOn cart {} = .ok c ∧
      (c.step Host.silent ()).1 = .error (.jam j) ∧
      Uncounted c.applyReset (c.applyReset.deeds Host.silent ()) (c.step Host.silent ()).2.1 := by
  refine ⟨?_, ?_⟩
  · obtain ⟨cart, c, hcart, hc, ⟨n, hn, hle⟩, hcopies⟩ := step_copying
    obtain ⟨start, hstart⟩ := Ledger.applyReset_start c.system.cycles c
    have hran := Ran.step (.powerOn hc) hn
    rw [hstart] at hran
    refine ⟨cart, c, _, hcart, hc, ?_, Nat.le_trans hle (Nat.le_add_left n 0),
      (Ran.balanced hran).1, ((Ran.balanced (.powerOn hc)).2 Host.silent ()).1⟩
    exact (Nat.zero_add _).trans hcopies
  · have hjam : ∃ cart c j, Cartridge.ofBytes jammingImage = .ok cart ∧
        powerOn cart {} = .ok c ∧ (c.step Host.silent ()).1 = .error (.jam j) :=
      ⟨_, _, _, rfl, rfl, rfl⟩
    obtain ⟨cart, c, j, hcart, hc, hj⟩ := hjam
    exact ⟨cart, c, j, hcart, hc, hj, ((Ran.balanced (.powerOn hc)).2 Host.silent ()).2.2 j hj⟩

end Nes.Console
