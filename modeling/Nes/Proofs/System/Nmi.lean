import Nes.Proofs.Ppu.Nmi
import Nes.Proofs.System.Elapse

/-!
# Edges of the interrupt condition

An edge is a deed with which the picture unit begins to want an interrupt (`Deed.rises`); as nothing
but the control register and the start of the blank can bring it about, only writes and dots are
edges.  The latch is set when there has been an edge since it was cleared (`System.nmi_replay`).

Two edges are far apart.  After one by a write, the beam is in the blank, and after one by a dot it
has just entered it; either way the next blank is many thousand dots away.  So an instruction with
the time after it has one edge at most (`System.edges_le_one`).
-/

namespace Nes

open Ppu (Timely Fades Op)

namespace Deed

/-- The latch is asked for, or the system is reset. -/
def clears : Deed → Bool
  | poll | reset => true
  | _ => false

/-- The processor enters the handler. -/
def isNmi : Deed → Bool
  | nmi => true
  | _ => false

theorem clears_of_isAccess {d : Deed} (h : d.isAccess = true) :
    d.clears = false ∧ d.isNmi = false := by
  cases d <;> first | exact ⟨rfl, rfl⟩ | exact Bool.noConfusion h

theorem clears_of_isPassing {d : Deed} (h : d.isPassing = true) :
    d.clears = false ∧ d.isNmi = false := by
  cases d <;> first | exact ⟨rfl, rfl⟩ | exact Bool.noConfusion h

/-- The picture unit begins to want an interrupt. -/
def rises (s : System) (d : Deed) : Bool := !s.ppu.raises && (d.act s).ppu.raises

/-- What a deed does to the picture unit is one of its operations. -/
theorem ppu_cases (s : System) (d : Deed) :
    (d.act s).ppu = s.ppu ∧ d.clears = false ∨
      ∃ op : Op Board, (d.act s).ppu = op.act s.ppu ∧ op.clears = d.clears := by
  cases d with
  | read addr =>
    obtain ⟨_, _, _, _, _, heq, hppu, _⟩ := s.read_cases addr
    simp only [act, heq]
    rcases hppu with hppu | hppu
    · exact Or.inl ⟨hppu, rfl⟩
    · exact Or.inr ⟨.read s.board addr, hppu, rfl⟩
  | write addr hne v =>
    obtain ⟨_, _, _, _, _, _, _, heq, hppu, _⟩ := s.write_cases hne v
    simp only [act, heq]
    rcases hppu with hppu | hppu
    · exact Or.inl ⟨hppu, rfl⟩
    · exact Or.inr ⟨.write s.board addr v, hppu, rfl⟩
  | copy page => exact Or.inr ⟨.sprites page, rfl, rfl⟩
  | dot => exact Or.inr ⟨.tick s.board, rfl, rfl⟩
  | fetch =>
    rcases s.feedSamples_cases with ⟨_, heq⟩ | ⟨_, v, heq⟩
    · exact Or.inl ⟨congrArg System.ppu heq, rfl⟩
    · simp only [act, heq]
      exact Or.inl ⟨trivial, rfl⟩
  | poll => exact Or.inr ⟨.poll, rfl, rfl⟩
  | frame => exact Or.inr ⟨.takeFrame, rfl, rfl⟩
  | reset => exact Or.inr ⟨.reset, rfl, rfl⟩
  | _ => exact Or.inl ⟨rfl, rfl⟩

theorem timely_act {s : System} (hs : Timely s.ppu) (d : Deed) : Timely (d.act s).ppu := by
  rcases d.ppu_cases s with ⟨heq, _⟩ | ⟨op, heq, _⟩
  · rw [heq]
    exact hs
  · rw [heq]
    exact hs.act op

theorem nmi_act {s : System} (hs : Timely s.ppu) {d : Deed} (hd : d.clears = false) :
    (d.act s).ppu.nmi = (s.ppu.nmi || d.rises s) := by
  rcases d.ppu_cases s with ⟨heq, _⟩ | ⟨op, heq, hop⟩
  · rw [rises, heq, Bool.not_and_self, Bool.or_false]
  · rw [rises, heq]
    exact hs.nmi_act op (hop.trans hd)

/-- Reads and pushes are no edges. -/
theorem IsQuiet.rises {d : Deed} (h : d.IsQuiet) (s : System) : d.rises s = false := by
  cases d with
  | read addr =>
    obtain ⟨_, _, _, _, _, heq, hppu, _⟩ := s.read_cases addr
    simp only [Deed.rises, act, heq]
    rcases hppu with hppu | hppu
    · rw [hppu]
      exact Bool.not_and_self _
    · rw [hppu]
      exact (Ppu.fades_readRegister s.ppu s.board addr).raises
  | write addr hne v =>
    obtain ⟨sp, rfl⟩ := h
    obtain ⟨ram, heq⟩ := s.write_stack sp v
    simp only [Deed.rises, act, heq]
    exact Bool.not_and_self _
  | _ => exact h.elim

theorem rises_copy (s : System) (page : List UInt8) : (copy page).rises s = false :=
  (Ppu.fades_writeSprites s.ppu page).raises

/-- Of what happens after an instruction, only dots can be edges, and only dots move the beam. -/
theorem ppu_of_isPassing {d : Deed} (h : d.isPassing = true) (hdot : d.isDot = false) (s : System) :
    d.rises s = false ∧ (d.act s).ppu.beam = s.ppu.beam := by
  have hself : ∀ b : Bool, (!b && b) = false := Bool.not_and_self
  cases d with
  | fetch =>
    rcases s.feedSamples_cases with ⟨_, heq⟩ | ⟨_, v, heq⟩
    · simp only [rises, act, heq]
      exact ⟨hself _, trivial⟩
    · simp only [rises, act, heq]
      exact ⟨hself _, trivial⟩
  | sound => exact ⟨hself _, rfl⟩
  | clock => exact ⟨hself _, rfl⟩
  | wait => exact ⟨hself _, rfl⟩
  | frame => exact ⟨hself _, rfl⟩
  | pads state1 state2 => exact ⟨hself _, rfl⟩
  | dot => exact Bool.noConfusion hdot
  | _ => exact Bool.noConfusion h

end Deed

namespace System

open Deed

/-- The edges among some deeds. -/
def edges (s : System) : List Deed → Nat
  | [] => 0
  | d :: ds => (d.rises s).toNat + (d.act s).edges ds

theorem edges_append (s : System) (ds ds' : List Deed) :
    s.edges (ds ++ ds') = s.edges ds + (s.replay ds).edges ds' := by
  induction ds generalizing s with
  | nil => exact (Nat.zero_add _).symm
  | cons d ds ih => rw [List.cons_append, edges, ih, edges, replay_cons, Nat.add_assoc]

theorem timely_replay {s : System} (hs : Timely s.ppu) (ds : List Deed) :
    Timely (s.replay ds).ppu :=
  replay_preserves (P := fun q => Timely q.ppu) (fun _ d _ hq => Deed.timely_act hq d) hs

/-- The latch is set when there has been an edge. -/
theorem nmi_replay {s : System} (hs : Timely s.ppu) {ds : List Deed}
    (hds : ∀ d ∈ ds, d.clears = false) :
    (s.replay ds).ppu.nmi = (s.ppu.nmi || decide (0 < s.edges ds)) := by
  induction ds generalizing s with
  | nil => exact (Bool.or_false _).symm
  | cons d ds ih =>
    rw [replay_cons, ih (Deed.timely_act hs d) fun d' hd' => hds d' (List.mem_cons_of_mem d hd'),
      Deed.nmi_act hs (hds d List.mem_cons_self), Bool.or_assoc, edges]
    cases d.rises s with
    | false => rw [Bool.false_or, Bool.toNat_false, Nat.zero_add]
    | true =>
      have hpos : 0 < 1 + (d.act s).edges ds := by omega
      rw [Bool.true_or, Bool.toNat_true, decide_eq_true hpos]

theorem edges_eq_zero (s : System) {ds : List Deed} (h : ∀ d ∈ ds, ∀ q, d.rises q = false) :
    s.edges ds = 0 := by
  induction ds generalizing s with
  | nil => rfl
  | cons d ds ih =>
    rw [edges, h d List.mem_cons_self, ih _ fun d' hd' => h d' (List.mem_cons_of_mem d hd')]
    rfl

theorem edges_quiet (s : System) {ds : List Deed} (h : ∀ d ∈ ds, d.IsQuiet) : s.edges ds = 0 :=
  s.edges_eq_zero fun d hd => (h d hd).rises

/-- After an instruction there is no edge until the next blank, and only one in a frame. -/
theorem edges_passing {s : System} (hs : Timely s.ppu) {ds : List Deed}
    (hds : ∀ d ∈ ds, d.isPassing = true) :
    (2 * ds.countP isDot ≤ s.ppu.beam.toBlank → s.edges ds = 0) ∧
      (2 * ds.countP isDot ≤ 80000 → s.edges ds ≤ 1) := by
  induction ds generalizing s with
  | nil => exact ⟨fun _ => rfl, fun _ => Nat.zero_le 1⟩
  | cons d ds ih =>
    obtain ⟨ihnone, ihone⟩ := ih (Deed.timely_act hs d) fun d' hd' =>
      hds d' (List.mem_cons_of_mem d hd')
    rw [edges, List.countP_cons]
    cases hdot : d.isDot with
    | false =>
      obtain ⟨hrises, hbeam⟩ := Deed.ppu_of_isPassing (hds d List.mem_cons_self) hdot s
      rw [hbeam] at ihnone
      rw [hrises, Bool.toNat_false, Nat.zero_add]
      exact ⟨ihnone, ihone⟩
    | true =>
      obtain rfl := Deed.eq_dot hdot
      have hrises : dot.rises s = (s.ppu.beam.entersVblank && s.ppu.control.nmiEnabled) :=
        hs.rises_tick s.board
      have hbeam : (dot.act s).ppu.beam = s.ppu.beam.advance s.ppu.mask.rendering :=
        Ppu.beam_tick s.ppu s.board
      rw [hbeam] at ihnone
      rw [if_pos rfl]
      cases he : s.ppu.beam.entersVblank with
      | false =>
        have hadvance := Ppu.Beam.toBlank_advance hs.inFrame s.ppu.mask.rendering he
        rw [hrises, he, Bool.false_and, Bool.toNat_false, Nat.zero_add]
        exact ⟨fun h => ihnone (by omega), fun h => ihone (by omega)⟩
      | true =>
        -- From here the next blank is a frame away.
        have hzero := (Ppu.Beam.entersVblank_iff_toBlank hs.inFrame).1 he
        rw [Ppu.Beam.toBlank_advance_of_entersVblank _ he] at ihnone
        have hle := (dot.rises s).toNat_le
        refine ⟨fun h => by omega, fun h => ?_⟩
        have := ihnone (by omega)
        omega

/-- **An instruction and the time after it have one edge at most.** -/
theorem edges_le_one {s : System} (hs : Timely s.ppu) {ds ds' : List Deed} (hds : Accessing ds)
    (hds' : ∀ d ∈ ds', d.isPassing = true) (hdots : 2 * ds'.countP isDot ≤ 80000) :
    s.edges (ds ++ ds') ≤ 1 := by
  obtain ⟨quiet, last, rfl, hquiet, hlast⟩ := hds
  have hpassing := (edges_passing (timely_replay hs (quiet ++ last)) hds').2 hdots
  rw [edges_append, edges_append, edges_quiet s hquiet, Nat.zero_add]
  rcases hlast with rfl | ⟨addr, hne, v, rfl⟩ | ⟨page, rfl⟩
  · rw [edges, Nat.zero_add]
    exact hpassing
  · cases hrises : (Deed.write addr hne v).rises (s.replay quiet) with
    | false =>
      rw [edges, hrises, edges, Bool.toNat_false, Nat.zero_add]
      exact hpassing
    | true =>
      -- The flag of the blank is set, so that the next one is far.
      have hafter := timely_replay hs (quiet ++ [Deed.write addr hne v])
      have hraises : (s.replay (quiet ++ [Deed.write addr hne v])).ppu.raises = true := by
        rw [replay_append]
        exact (Bool.and_eq_true_iff.1 hrises).2
      have hfar := (hafter.inBlank (Bool.and_eq_true_iff.1 hraises).2).toBlank hafter.inFrame
      have hnone := (edges_passing hafter hds').1 (by omega)
      rw [hnone, Nat.add_zero, edges, edges, Nat.add_zero]
      exact Bool.toNat_le _
  · rw [edges, edges, Deed.rises_copy]
    simp only [Bool.toNat_false, Nat.zero_add]
    exact hpassing

end System

end Nes
