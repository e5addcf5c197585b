import Nes.Proofs.System.Frame

/-!
# What happens in some cycles

The cycles that pass can be read off what happens: each is three dots, a tick of the sound unit and
a cycle of the board (`Deed.Passes`).  They are as many as are asked for
(`System.passes_tickDeeds`), and those of a wait are the cycles that were due at its start, with
four for each byte fetched in it (`System.passes_drainDeeds`).
-/

namespace Nes

namespace Deed

/-- A dot of the picture. -/
def isDot : Deed → Bool
  | dot => true
  | _ => false

theorem eq_dot {d : Deed} (h : d.isDot = true) : d = dot := by
  cases d <;> first | rfl | exact Bool.noConfusion h

/-- A tick of the sound unit. -/
def isSound : Deed → Bool
  | sound => true
  | _ => false

/-- A cycle of the board. -/
def isClock : Deed → Bool
  | clock => true
  | _ => false

/-- A fetch of a byte of a sample. -/
def isFetch : Deed → Bool
  | fetch => true
  | _ => false

/-- In some deeds `n` cycles pass, and `f` bytes of samples are fetched. -/
structure Passes (ds : List Deed) (n f : Nat) : Prop where
  /-- A cycle is three dots of the picture. -/
  dots : ds.countP isDot = 3 * n
  /-- It is one tick of the sound unit. -/
  sounds : ds.countP isSound = n
  /-- It is one cycle of the board. -/
  clocks : ds.countP isClock = n
  /-- The bytes are counted too. -/
  fetches : ds.countP isFetch = f

theorem Passes.append {ds ds' : List Deed} {n n' f f' : Nat} (h : Passes ds n f)
    (h' : Passes ds' n' f') : Passes (ds ++ ds') (n + n') (f + f') where
  dots := by rw [List.countP_append, h.dots, h'.dots, Nat.mul_add]
  sounds := by rw [List.countP_append, h.sounds, h'.sounds]
  clocks := by rw [List.countP_append, h.clocks, h'.clocks]
  fetches := by rw [List.countP_append, h.fetches, h'.fetches]

/-- A deed in no time. -/
def isTimeless (d : Deed) : Bool := !(d.isDot || d.isSound || d.isClock || d.isFetch)

theorem Passes.zero {ds : List Deed} (h : ∀ d ∈ ds, d.isTimeless = true) : Passes ds 0 0 := by
  have hcount : ∀ p : Deed → Bool, (∀ d, d.isTimeless = true → p d = false) → ds.countP p = 0 := by
    intro p hp
    rw [List.countP_eq_zero]
    exact fun d hd => by rw [hp d (h d hd)]; exact Bool.false_ne_true
  constructor
  all_goals
    refine hcount _ fun d hd => ?_
    cases d <;> first | rfl | exact absurd hd Bool.false_ne_true

/-- A deed of the time that passes after an instruction, until the processor goes on. -/
def isPassing : Deed → Bool
  | dot | sound | fetch | clock | wait | frame | pads _ _ => true
  | _ => false

theorem isAccess_of_isPassing {d : Deed} (h : d.isPassing = true) : d.isAccess = false := by
  cases d <;> first | rfl | exact Bool.noConfusion h

theorem isTimeless_of_isAccess {d : Deed} (h : d.isAccess = true) : d.isTimeless = true := by
  cases d <;> first | rfl | exact absurd h Bool.false_ne_true

/-- The count of cycles is that of the board's. -/
theorem cycles_act (s : System) (d : Deed) : (d.act s).cycles = s.cycles + d.isClock.toNat := by
  cases d with
  | read addr => exact (act_of_isAccess (d := .read addr) rfl s).2
  | write addr hne v => exact (act_of_isAccess (d := .write addr hne v) rfl s).2
  | fetch =>
    rcases s.feedSamples_cases with ⟨_, heq⟩ | ⟨_, v, heq⟩
    · simp only [act, heq]
      rfl
    · simp only [act, heq]
      rfl
  | _ => rfl

end Deed

namespace System

open Deed

theorem cycles_replay (s : System) (ds : List Deed) :
    (s.replay ds).cycles = s.cycles + ds.countP isClock := by
  induction ds generalizing s with
  | nil => rfl
  | cons d ds ih =>
    have hone : d.isClock.toNat = if d.isClock = true then 1 else 0 := by
      cases d.isClock <;> rfl
    rw [replay_cons, ih, cycles_act, List.countP_cons, hone]
    omega

/-- Only the accesses of the processor make copies. -/
theorem copyCycles_eq_zero (s : System) {ds : List Deed} (h : ∀ d ∈ ds, d.isAccess = false) :
    s.copyCycles ds = 0 := by
  induction ds generalizing s with
  | nil => rfl
  | cons d ds ih =>
    have hd := h d List.mem_cons_self
    have hcost : d.copyCost s = 0 := by
      cases d <;> first | rfl | exact Bool.noConfusion hd
    rw [copyCycles, hcost, ih _ fun d' hd' => h d' (List.mem_cons_of_mem d hd')]

theorem isPassing_tickOneDeeds (s : System) : ∀ d ∈ s.tickOneDeeds, d.isPassing = true := by
  unfold tickOneDeeds
  split <;> decide

theorem passes_tickOneDeeds (s : System) :
    Passes s.tickOneDeeds 1 s.apu.dmc.fetched := by
  unfold tickOneDeeds Apu.Dmc.fetched
  split <;> exact ⟨rfl, rfl, rfl, rfl⟩

/-- What happens in some cycles happens in one of them. -/
theorem mem_tickDeeds {s : System} {n : Nat} {d : Deed} (hd : d ∈ s.tickDeeds n) :
    ∃ q : System, d ∈ q.tickOneDeeds := by
  induction n generalizing s with
  | zero => exact absurd hd List.not_mem_nil
  | succ n ih =>
    rw [tickDeeds, List.mem_append] at hd
    rcases hd with hd | hd
    · exact ⟨s, hd⟩
    · exact ih hd

theorem isPassing_tickDeeds (s : System) (n : Nat) : ∀ d ∈ s.tickDeeds n, d.isPassing = true := by
  intro d hd
  obtain ⟨q, hq⟩ := mem_tickDeeds hd
  exact q.isPassing_tickOneDeeds d hq

/-- The cycles that pass, and those that the processor has to wait for the bytes fetched in them. -/
theorem passes_tickDeeds (s : System) (n : Nat) :
    ∃ f, Passes (s.tickDeeds n) n f ∧ (s.tick n).stall = s.stall + 4 * f := by
  induction n generalizing s with
  | zero => exact ⟨0, ⟨rfl, rfl, rfl, rfl⟩, rfl⟩
  | succ n ih =>
    obtain ⟨f, hpasses, hstall⟩ := ih s.tickOne
    have hall := s.passes_tickOneDeeds.append hpasses
    rw [Nat.add_comm 1 n] at hall
    refine ⟨s.apu.dmc.fetched + f, hall, ?_⟩
    rw [tick, hstall, s.dmc_stall_tickOne.2]
    omega

/-- A wait is made of cycles, each of which is announced. -/
theorem mem_drainDeeds {s : System} {fuel : Nat} {d : Deed} (hd : d ∈ s.drainDeeds fuel) :
    d = .wait ∨ ∃ q : System, d ∈ q.tickOneDeeds := by
  induction fuel generalizing s with
  | zero => exact absurd hd List.not_mem_nil
  | succ fuel ih =>
    unfold drainDeeds at hd
    split at hd
    · exact absurd hd List.not_mem_nil
    rw [List.mem_cons, List.mem_append] at hd
    rcases hd with rfl | hd | hd
    · exact Or.inl rfl
    · exact Or.inr ⟨_, hd⟩
    · exact ih hd

theorem isPassing_drainDeeds (s : System) (fuel : Nat) :
    ∀ d ∈ s.drainDeeds fuel, d.isPassing = true := by
  intro d hd
  rcases mem_drainDeeds hd with rfl | ⟨q, hq⟩
  · rfl
  · exact q.isPassing_tickOneDeeds d hq

/-- The cycles of a wait are those that were due, and four for each byte fetched. -/
theorem passes_drainDeeds (s : System) (done fuel : Nat) :
    ∃ n f, (s.drainWithin done fuel).1 = done + n ∧ Passes (s.drainDeeds fuel) n f ∧
      s.stall + 4 * f = n + (s.drainWithin done fuel).2.stall := by
  induction fuel generalizing s done with
  | zero => exact ⟨0, 0, rfl, ⟨rfl, rfl, rfl, rfl⟩, (Nat.zero_add _).symm⟩
  | succ fuel ih =>
    unfold drainDeeds drainWithin
    by_cases h : s.stall = 0
    · rw [if_pos h, if_pos h]
      exact ⟨0, 0, rfl, ⟨rfl, rfl, rfl, rfl⟩, (Nat.zero_add _).symm⟩
    rw [if_neg h, if_neg h]
    generalize hwaited : ({ s with stall := s.stall - 1 } : System) = waited
    obtain ⟨n, f, hn, hpasses, hstall⟩ := ih waited.tickOne (done + 1)
    have hone := waited.dmc_stall_tickOne.2
    have hbefore : waited.stall = s.stall - 1 := by rw [← hwaited]
    have hwait : Passes [.wait] 0 0 := ⟨rfl, rfl, rfl, rfl⟩
    have hall := hwait.append (waited.passes_tickOneDeeds.append hpasses)
    rw [Nat.zero_add, Nat.zero_add, Nat.add_comm 1 n] at hall
    exact ⟨n + 1, waited.apu.dmc.fetched + f, by omega, hall, by omega⟩

end System

end Nes
