import Nes.Proofs.Ppu.Strokes
import Nes.Proofs.System.Elapse

/-!
# What a system does to its picture unit

A deed is at most one operation of the picture unit (`Deed.op?`), so that a list of deeds takes the
picture unit of a system through a run of `Ppu.Op`s (`System.ops`, `System.ppu_replay`).
-/

namespace Nes

open Ppu (Op)

namespace Deed

/-- The picture is asked for. -/
def isFrame : Deed → Bool
  | frame => true
  | _ => false

/-- An access to the registers of the picture unit, if the address is one of theirs. -/
def toRegister? (addr : UInt16) (op : Op Board) : Option (Op Board) :=
  if addr < 0x2000 then none else if addr < 0x4000 then some op else none

/-- What a deed does to the picture unit, if it does anything. -/
def op? (s : System) : Deed → Option (Op Board)
  | read addr => toRegister? addr (.read s.board addr)
  | write addr _ v => toRegister? addr (.write s.board addr v)
  | copy page => some (.sprites page)
  | dot => some (.tick s.board)
  | poll => some .poll
  | frame => some .takeFrame
  | reset => some .reset
  | _ => none

theorem ppu_read (s : System) (addr : UInt16) :
    (s.read addr).2.ppu = s.ppu.run (toRegister? addr (.read s.board addr)).toList := by
  unfold toRegister? System.read
  split_ifs <;> rfl

theorem ppu_write (s : System) {addr : UInt16} (hcopy : addr ≠ 0x4014) (v : UInt8) :
    (s.write addr v).ppu = s.ppu.run (toRegister? addr (.write s.board addr v)).toList := by
  have hne : (addr == 0x4014) = false := beq_eq_false_iff_ne.2 hcopy
  unfold toRegister? System.write
  rw [hne, if_neg Bool.false_ne_true]
  split_ifs <;> rfl

theorem ppu_act (s : System) (d : Deed) : (d.act s).ppu = s.ppu.run (d.op? s).toList := by
  cases d with
  | read addr => exact ppu_read s addr
  | write addr hne v => exact ppu_write s hne v
  | fetch =>
    have hppu : s.feedSamples.ppu = s.ppu := by
      rcases s.feedSamples_cases with ⟨_, heq⟩ | ⟨_, v, heq⟩ <;> rw [heq]
    exact hppu
  | _ => rfl

theorem toRegister?_cases (addr : UInt16) (op : Op Board) :
    toRegister? addr op = none ∨ toRegister? addr op = some op := by
  unfold toRegister?
  split_ifs
  · exact Or.inl rfl
  · exact Or.inr rfl
  · exact Or.inl rfl

/-- Only dots are dots, and only who asks for the picture takes it. -/
theorem op?_kind (s : System) {d : Deed} {op : Op Board} (hop : d.op? s = some op) :
    op.isTick = d.isDot ∧ op.takes = d.isFrame := by
  cases d with
  | read addr =>
    rcases toRegister?_cases addr (.read s.board addr) with heq | heq
    · cases heq.symm.trans hop
    · cases heq.symm.trans hop
      exact ⟨rfl, rfl⟩
  | write addr hne v =>
    rcases toRegister?_cases addr (.write s.board addr v) with heq | heq
    · cases heq.symm.trans hop
    · cases heq.symm.trans hop
      exact ⟨rfl, rfl⟩
  | _ => cases hop <;> exact ⟨rfl, rfl⟩

theorem isDot_of_op?_eq_none {s : System} {d : Deed} (hop : d.op? s = none) : d.isDot = false := by
  cases d with
  | dot => cases hop
  | _ => rfl

/-- The picture is not asked for while the processor works. -/
theorem isFrame_of_isAccess {d : Deed} (h : d.isAccess = true) : d.isFrame = false := by
  cases d <;> first | rfl | exact Bool.noConfusion h

end Deed

namespace System

/-- What some deeds do to the picture unit. -/
def ops (s : System) : List Deed → List (Op Board)
  | [] => []
  | d :: ds => (d.op? s).toList ++ (d.act s).ops ds

theorem ops_append (s : System) (ds ds' : List Deed) :
    s.ops (ds ++ ds') = s.ops ds ++ (s.replay ds).ops ds' := by
  induction ds generalizing s with
  | nil => rfl
  | cons d ds ih => rw [List.cons_append, ops, ih, ops, replay_cons, List.append_assoc]

theorem ppu_replay (s : System) (ds : List Deed) : (s.replay ds).ppu = s.ppu.run (s.ops ds) := by
  induction ds generalizing s with
  | nil => rfl
  | cons d ds ih => rw [replay_cons, ih, d.ppu_act, ops, Ppu.run_append]

theorem countP_isTick_ops (s : System) (ds : List Deed) :
    (s.ops ds).countP Op.isTick = ds.countP Deed.isDot := by
  induction ds generalizing s with
  | nil => rfl
  | cons d ds ih =>
    rw [ops, List.countP_append, ih, List.countP_cons, Nat.add_comm]
    refine congrArg _ ?_
    cases hop : d.op? s with
    | none =>
      rw [Deed.isDot_of_op?_eq_none hop]
      rfl
    | some op =>
      rw [← (Deed.op?_kind s hop).1]
      exact List.countP_singleton

theorem takes_ops (s : System) {ds : List Deed} (hds : ∀ d ∈ ds, d.isFrame = false) :
    ∀ op ∈ s.ops ds, op.takes = false := by
  induction ds generalizing s with
  | nil => exact fun op hop => absurd hop List.not_mem_nil
  | cons d ds ih =>
    intro op hop
    rw [ops, List.mem_append, Option.mem_toList] at hop
    rcases hop with hop | hop
    · rw [(Deed.op?_kind s hop).2, hds d List.mem_cons_self]
    · exact ih _ (fun d' hd' => hds d' (List.mem_cons_of_mem d hd')) op hop

/-- Until the picture is asked for, none is taken. -/
theorem taken_append (s : System) {ds : List Deed} (hds : ∀ d ∈ ds, d.isFrame = false)
    (ds' : List Deed) :
    s.ppu.taken (s.ops (ds ++ ds')) = (s.replay ds).ppu.taken ((s.replay ds).ops ds') := by
  rw [ops_append, Ppu.taken_append, Ppu.taken_eq_nil _ (s.takes_ops hds), List.nil_append,
    ppu_replay]

/-! ### Time -/

theorem isFrame_tickOneDeeds (s : System) : ∀ d ∈ s.tickOneDeeds, d.isFrame = false := by
  unfold tickOneDeeds
  split <;> decide

theorem isFrame_tickDeeds (s : System) (n : Nat) : ∀ d ∈ s.tickDeeds n, d.isFrame = false := by
  intro d hd
  obtain ⟨q, hq⟩ := mem_tickDeeds hd
  exact q.isFrame_tickOneDeeds d hq

theorem isFrame_drainDeeds (s : System) (fuel : Nat) :
    ∀ d ∈ s.drainDeeds fuel, d.isFrame = false := by
  intro d hd
  rcases mem_drainDeeds hd with rfl | ⟨q, hq⟩
  · rfl
  · exact q.isFrame_tickOneDeeds d hq

end System

end Nes
