import Mathlib.Tactic.SplitIfs
import Nes.Proofs.System.Drain

/-!
# What a deed leaves alone

An access of the processor reaches one device (`System.read_cases`, `System.write_cases`), and a
push only memory (`System.write_stack`).  So the accesses of an instruction leave the count of
cycles alone, and only a copy adds to the cycles that the processor has to wait
(`System.replay_of_isAccess`), each for a write to one register
(`System.copyCycles_accessesDeeds`).  No deed makes the timer of the sample channel faster than its
register can (`Deed.slow_act`).
-/

namespace Nes

namespace System

theorem read_cases (s : System) (addr : UInt16) :
    ∃ ppu apu pad1 pad2 notices,
      (s.read addr).2 = { s with ppu, apu, pad1, pad2, notices } ∧
        (ppu = s.ppu ∨ ppu = (s.ppu.readRegister s.board addr).2) ∧ apu.dmc = s.apu.dmc := by
  unfold System.read
  split_ifs
  · exact ⟨_, _, _, _, _, rfl, Or.inl rfl, rfl⟩
  · exact ⟨_, _, _, _, _, rfl, Or.inr rfl, rfl⟩
  · exact ⟨_, _, _, _, _, rfl, Or.inl rfl, rfl⟩
  · exact ⟨_, _, _, _, _, rfl, Or.inl rfl, rfl⟩
  · exact ⟨_, _, _, _, _, rfl, Or.inl rfl, rfl⟩
  · exact ⟨_, _, _, _, _, rfl, Or.inl rfl, rfl⟩
  · exact ⟨_, _, _, _, _, rfl, Or.inl rfl, rfl⟩
  · exact ⟨_, _, _, _, _, rfl, Or.inl rfl, rfl⟩

theorem slow_writeEnables {a : Apu} (h : a.dmc.Slow) (v : UInt8) : (a.writeEnables v).dmc.Slow := by
  unfold Apu.writeEnables Apu.Dmc.setEnabled
  dsimp only
  split_ifs <;> exact h

theorem slow_writeApu {a : Apu} (h : a.dmc.Slow) (addr : UInt16) (v : UInt8) :
    (a.write addr v).dmc.Slow := by
  unfold Apu.write
  dsimp only
  split_ifs
  · exact h
  · exact h
  · exact h
  · exact h
  · exact h.write _ v
  · exact slow_writeEnables h v
  · unfold Apu.writeFrame
    dsimp only
    split_ifs <;> exact h
  · exact h

theorem write_cases (s : System) {addr : UInt16} (hcopy : addr ≠ 0x4014) (v : UInt8) :
    ∃ ram ppu apu pad1 pad2 board notices,
      s.write addr v = { s with ram, ppu, apu, pad1, pad2, board, notices } ∧
        (ppu = s.ppu ∨ ppu = (s.ppu.writeRegister s.board addr v).1) ∧
        (s.apu.dmc.Slow → apu.dmc.Slow) := by
  have hne : (addr == 0x4014) = false := beq_eq_false_iff_ne.2 hcopy
  unfold System.write
  rw [hne, if_neg Bool.false_ne_true]
  split_ifs
  · exact ⟨_, _, _, _, _, _, _, rfl, Or.inl rfl, id⟩
  · exact ⟨_, _, _, _, _, _, _, rfl, Or.inr rfl, id⟩
  · exact ⟨_, _, _, _, _, _, _, rfl, Or.inl rfl, id⟩
  · exact ⟨_, _, _, _, _, _, _, rfl, Or.inl rfl, fun h => slow_writeApu h addr v⟩
  · exact ⟨_, _, _, _, _, _, _, rfl, Or.inl rfl, id⟩
  · exact ⟨_, _, _, _, _, _, _, rfl, Or.inl rfl, id⟩
  · exact ⟨_, _, _, _, _, _, _, rfl, Or.inl rfl, id⟩

theorem write_stack (s : System) (sp v : UInt8) :
    ∃ ram, s.write (Machine.stackAddr sp) v = { s with ram } := by
  have hlt : Machine.stackAddr sp < 0x2000 := by
    rw [UInt16.lt_iff_toNat_lt]
    exact Nat.lt_trans (toNat_stackAddr_lt sp) (by decide)
  unfold System.write
  rw [if_pos hlt]
  exact ⟨_, rfl⟩

end System

namespace Deed

/-- The processor reads, writes or starts a copy. -/
def isAccess : Deed → Bool
  | read _ | write _ _ _ | copy _ => true
  | _ => false

/-- The cycles that the processor has to wait for a copy. -/
def copyCost (s : System) : Deed → Nat
  | copy _ => System.spriteCopyCycles + s.cycles % 2
  | _ => 0

theorem copyCost_le (s : System) (d : Deed) : d.copyCost s ≤ 514 := by
  cases d
  case copy page =>
    have := Nat.mod_lt s.cycles (by decide : 0 < 2)
    simp only [copyCost, System.spriteCopyCycles]
    omega
  all_goals exact Nat.zero_le 514

theorem IsQuiet.isAccess {d : Deed} (h : d.IsQuiet) : d.isAccess = true := by
  cases d <;> first | rfl | exact h.elim

theorem IsQuiet.copyCost {d : Deed} (h : d.IsQuiet) (s : System) : d.copyCost s = 0 := by
  cases d <;> first | rfl | exact h.elim

theorem Accessing.isAccess {ds : List Deed} (h : Accessing ds) : ∀ d ∈ ds, d.isAccess = true := by
  obtain ⟨quiet, last, rfl, hquiet, hlast⟩ := h
  intro d hd
  rw [List.mem_append] at hd
  rcases hd with hd | hd
  · exact (hquiet d hd).isAccess
  rcases hlast with rfl | ⟨addr, hne, v, rfl⟩ | ⟨page, rfl⟩
  · exact absurd hd List.not_mem_nil
  · rw [List.mem_singleton.1 hd]
    rfl
  · rw [List.mem_singleton.1 hd]
    rfl

/-- An access lets no time pass, and only a copy makes the processor wait. -/
theorem act_of_isAccess {d : Deed} (h : d.isAccess = true) (s : System) :
    (d.act s).stall = s.stall + d.copyCost s ∧ (d.act s).cycles = s.cycles := by
  cases d with
  | read addr =>
    obtain ⟨_, _, _, _, _, heq, _⟩ := s.read_cases addr
    simp only [act, heq]
    exact ⟨rfl, trivial⟩
  | write addr hne v =>
    obtain ⟨_, _, _, _, _, _, _, heq, _⟩ := s.write_cases hne v
    simp only [act, heq]
    exact ⟨rfl, trivial⟩
  | copy page => exact ⟨Nat.add_assoc _ _ _, rfl⟩
  | _ => exact absurd h Bool.false_ne_true

/-- No deed makes the timer of the sample channel fast. -/
theorem slow_act {s : System} (h : s.apu.dmc.Slow) (d : Deed) : (d.act s).apu.dmc.Slow := by
  cases d with
  | read addr =>
    obtain ⟨_, _, _, _, _, heq, _, hdmc⟩ := s.read_cases addr
    simp only [act, heq, hdmc]
    exact h
  | write addr hne v =>
    obtain ⟨_, _, _, _, _, _, _, heq, _, hslow⟩ := s.write_cases hne v
    simp only [act, heq]
    exact hslow h
  | sound =>
    simp only [act, Apu.dmc_tick, Apu.Dmc.Slow, (Apu.Dmc.tick_cases s.apu.dmc).1]
    exact h
  | fetch =>
    rcases s.feedSamples_cases with ⟨_, heq⟩ | ⟨_, v, heq⟩
    · simp only [act, heq]
      exact h
    · simp only [act, heq, Apu.feed, Apu.Dmc.Slow, Apu.Dmc.period_feed]
      exact h
  | reset => exact System.slow_writeEnables h 0
  | _ => exact h

end Deed

/-- The access starts a copy into sprite memory. -/
def Access.startsCopy : Access → Bool
  | read .. => false
  | write addr _ => addr == 0x4014

namespace System

/-- The cycles that the processor has to wait for the copies among some deeds. -/
def copyCycles (s : System) : List Deed → Nat
  | [] => 0
  | d :: ds => d.copyCost s + (d.act s).copyCycles ds

theorem copyCycles_append (s : System) (ds ds' : List Deed) :
    s.copyCycles (ds ++ ds') = s.copyCycles ds + (s.replay ds).copyCycles ds' := by
  induction ds generalizing s with
  | nil => exact (Nat.zero_add _).symm
  | cons d ds ih => rw [List.cons_append, copyCycles, ih, copyCycles, replay_cons, Nat.add_assoc]

theorem copyCycles_quiet (s : System) {ds : List Deed} (h : ∀ d ∈ ds, d.IsQuiet) :
    s.copyCycles ds = 0 := by
  induction ds generalizing s with
  | nil => rfl
  | cons d ds ih =>
    rw [copyCycles, (h d List.mem_cons_self).copyCost,
      ih _ fun d' hd' => h d' (List.mem_cons_of_mem d hd')]

theorem replay_of_isAccess (s : System) {ds : List Deed} (h : ∀ d ∈ ds, d.isAccess = true) :
    (s.replay ds).stall = s.stall + s.copyCycles ds ∧ (s.replay ds).cycles = s.cycles := by
  induction ds generalizing s with
  | nil => exact ⟨rfl, rfl⟩
  | cons d ds ih =>
    obtain ⟨hstall, hcycles⟩ := Deed.act_of_isAccess (h d List.mem_cons_self) s
    have hrest := ih (d.act s) fun d' hd' => h d' (List.mem_cons_of_mem d hd')
    rw [replay_cons, copyCycles, hrest.1, hrest.2, hstall, hcycles, Nat.add_assoc]
    exact ⟨rfl, rfl⟩

/-- Reads and pushes make nothing wait. -/
theorem stall_quiet (s : System) {ds : List Deed} (h : ∀ d ∈ ds, d.IsQuiet) :
    (s.replay ds).stall = s.stall := by
  rw [(s.replay_of_isAccess fun d hd => (h d hd).isAccess).1, s.copyCycles_quiet h, Nat.add_zero]

/-- An instruction makes one copy at most. -/
theorem copyCycles_le (s : System) {ds : List Deed} (h : Deed.Accessing ds) :
    s.copyCycles ds ≤ 514 := by
  obtain ⟨quiet, last, rfl, hquiet, hlast⟩ := h
  rw [copyCycles_append, copyCycles_quiet s hquiet, Nat.zero_add]
  rcases hlast with rfl | ⟨addr, hne, v, rfl⟩ | ⟨page, rfl⟩
  · exact Nat.zero_le 514
  · exact Deed.copyCost_le (s.replay quiet) (.write addr hne v)
  · exact Deed.copyCost_le (s.replay quiet) (.copy page)

theorem isAccess_accessDeeds (s : System) (a : Access) :
    ∀ d ∈ s.accessDeeds a, d.isAccess = true := by
  intro d hd
  cases a with
  | read addr v =>
    rw [List.mem_singleton.1 hd]
    rfl
  | write addr v =>
    rw [accessDeeds] at hd
    split at hd
    · rcases List.mem_append.1 hd with hd | hd
      · exact (isQuiet_readDeeds _ _ d hd).isAccess
      · rw [List.mem_singleton.1 hd]
        rfl
    · rw [List.mem_singleton.1 hd]
      rfl

theorem copyCycles_accessDeeds (s : System) (a : Access) :
    s.copyCycles (s.accessDeeds a) =
      if a.startsCopy then spriteCopyCycles + s.cycles % 2 else 0 := by
  cases a with
  | read addr v => rfl
  | write addr v =>
    by_cases h : addr = 0x4014
    · have hquiet := isQuiet_readDeeds (v.toUInt16 <<< 8) 256
      have hcycles := (s.replay_of_isAccess fun d hd => (hquiet d hd).isAccess).2
      rw [accessDeeds, dif_pos h, copyDeeds, copyCycles_append, s.copyCycles_quiet hquiet, copyCycles,
        copyCycles, Deed.copyCost, hcycles, Access.startsCopy, h, beq_self_eq_true, if_pos rfl]
      omega
    · rw [accessDeeds, dif_neg h, Access.startsCopy, beq_eq_false_iff_ne.2 h,
        if_neg Bool.false_ne_true]
      rfl

/-- Each write that starts a copy makes the processor wait 513 cycles, or 514 from an odd cycle
on. -/
theorem copyCycles_accessesDeeds (s : System) (as : List Access) :
    s.copyCycles (s.accessesDeeds as) =
      as.countP Access.startsCopy * (spriteCopyCycles + s.cycles % 2) := by
  induction as generalizing s with
  | nil => exact (Nat.zero_mul _).symm
  | cons a as ih =>
    have hcycles : (a.act s).cycles = s.cycles := by
      rw [← replay_accessDeeds]
      exact (s.replay_of_isAccess (s.isAccess_accessDeeds a)).2
    rw [accessesDeeds, copyCycles_append, copyCycles_accessDeeds, replay_accessDeeds, ih, hcycles,
      List.countP_cons, Nat.add_mul, Nat.add_comm]
    congr 1
    split
    · exact (Nat.one_mul _).symm
    · exact (Nat.zero_mul _).symm

theorem slow_replay {s : System} (h : s.apu.dmc.Slow) (ds : List Deed) :
    (s.replay ds).apu.dmc.Slow :=
  replay_preserves (P := fun q => q.apu.dmc.Slow) (fun _ d _ hq => Deed.slow_act hq d) h

end System

end Nes
