import Nes.Bus.Recorder
import Nes.Proofs.Apu.Dmc
import Nes.Proofs.Cpu.Accesses
import Nes.System

/-!
# What happens to a system

Everything that a console does to its system is a `Deed`: an access of the processor, a part of a
cycle, or a request from outside.  `Deed.act` is what a deed does, and `System.replay` what a list
of them does, one after the other.

Larger operations are told apart into their deeds: a copy into sprite memory into 256 reads and the
copy itself (`copyDeeds`), the accesses of an instruction (`accessesDeeds`), a cycle of the
processor into three dots, a tick of the sound unit, the byte that the sample channel may want, and
the cycle of the board (`tickOneDeeds`), and the time that is waited into cycles (`drainDeeds`).
Replaying the deeds of an operation is the operation (`replay_copyDeeds` to `replay_drainDeeds`).
-/

namespace Nes

/-- What happens to a system. -/
inductive Deed
  /-- The processor reads. -/
  | read (addr : UInt16)
  /-- The processor writes, but does not start a copy. -/
  | write (addr : UInt16) (h : addr ≠ 0x4014) (v : UInt8)
  /-- A page that has been read is put into sprite memory. -/
  | copy (page : List UInt8)
  /-- A dot of the picture. -/
  | dot
  /-- A tick of the sound unit. -/
  | sound
  /-- The sample channel gets the byte that it wants. -/
  | fetch
  /-- A cycle of the board, with which a cycle of the processor ends. -/
  | clock
  /-- The processor waits for the cycle that follows. -/
  | wait
  /-- The processor asks for an interrupt by the picture unit. -/
  | poll
  /-- The processor enters the handler of that interrupt. -/
  | nmi
  /-- The picture is asked for. -/
  | frame
  /-- The buttons of the controllers are set. -/
  | pads (state1 state2 : UInt8)
  /-- The system is reset. -/
  | reset

namespace Deed

/-- The system after a deed. -/
def act (s : System) : Deed → System
  | read addr => (s.read addr).2
  | write addr _ v => s.write addr v
  | copy page =>
    { s with
      ppu := s.ppu.writeSprites page
      stall := s.stall + System.spriteCopyCycles + s.cycles % 2 }
  | dot =>
    let (ppu, board) := s.ppu.tickWith s.board
    { s with ppu, board }
  | sound => { s with apu := s.apu.tick }
  | fetch => s.feedSamples
  | clock => { s with board := s.board.clockCycle, cycles := s.cycles + 1 }
  | wait => { s with stall := s.stall - 1 }
  | poll => s.pollNmi.2
  | nmi => s
  | frame => s.takeFrame.2
  | pads state1 state2 => s.setPads state1 state2
  | reset => s.reset

/-- The processor reads, or writes to the stack. -/
def IsQuiet : Deed → Prop
  | read _ => True
  | write addr _ _ => ∃ sp, addr = Machine.stackAddr sp
  | _ => False

/-- The deeds of an instruction: reads and pushes, and at the end one write or one copy at most. -/
def Accessing (ds : List Deed) : Prop :=
  ∃ quiet last, ds = quiet ++ last ∧ (∀ d ∈ quiet, d.IsQuiet) ∧
    (last = [] ∨ (∃ addr h v, last = [.write addr h v]) ∨ ∃ page, last = [.copy page])

theorem Accessing.of_quiet {ds : List Deed} (hq : ∀ d ∈ ds, d.IsQuiet) : Accessing ds :=
  ⟨ds, [], (List.append_nil ds).symm, hq, Or.inl rfl⟩

theorem Accessing.quiet_append {ds ds' : List Deed} (h : Accessing ds')
    (hq : ∀ d ∈ ds, d.IsQuiet) : Accessing (ds ++ ds') := by
  obtain ⟨quiet, last, rfl, hquiet, hlast⟩ := h
  refine ⟨ds ++ quiet, last, (List.append_assoc _ _ _).symm, ?_, hlast⟩
  intro d hd
  rw [List.mem_append] at hd
  rcases hd with hd | hd
  · exact hq d hd
  · exact hquiet d hd

end Deed

namespace System

/-- The system after some deeds. -/
def replay (s : System) (ds : List Deed) : System := ds.foldl Deed.act s

@[simp] theorem replay_nil (s : System) : s.replay [] = s := rfl

@[simp] theorem replay_cons (s : System) (d : Deed) (ds : List Deed) :
    s.replay (d :: ds) = (d.act s).replay ds := rfl

theorem replay_append (s : System) (ds ds' : List Deed) :
    s.replay (ds ++ ds') = (s.replay ds).replay ds' := List.foldl_append

/-- What every deed keeps, a list of them keeps. -/
theorem replay_preserves {P : System → Prop} {ds : List Deed}
    (h : ∀ s, ∀ d ∈ ds, P s → P (d.act s)) {s : System} (hs : P s) : P (s.replay ds) := by
  induction ds generalizing s with
  | nil => exact hs
  | cons d ds ih =>
    exact ih (fun s d' hd' => h s d' (List.mem_cons_of_mem d hd')) (h s d List.mem_cons_self hs)

/-! ### Accesses of the processor -/

/-- The reads of some bytes in order. -/
def readDeeds (addr : UInt16) : Nat → List Deed
  | 0 => []
  | n + 1 => .read addr :: readDeeds (addr + 1) n

/-- A copy of a page into sprite memory. -/
def copyDeeds (s : System) (page : UInt8) : List Deed :=
  readDeeds (page.toUInt16 <<< 8) 256 ++ [.copy (Bus.listBy read s (page.toUInt16 <<< 8) 256).1]

/-- An access of the processor. -/
def accessDeeds (s : System) : Access → List Deed
  | .read addr _ => [.read addr]
  | .write addr v => if h : addr = 0x4014 then s.copyDeeds v else [.write addr h v]

/-- Accesses of the processor in order. -/
def accessesDeeds (s : System) : List Access → List Deed
  | [] => []
  | a :: as => s.accessDeeds a ++ (a.act s).accessesDeeds as

theorem replay_readDeeds (s : System) (addr : UInt16) (n : Nat) :
    s.replay (readDeeds addr n) = (Bus.listBy read s addr n).2 := by
  induction n generalizing s addr with
  | zero => rfl
  | succ n ih => exact ih (s.read addr).2 (addr + 1)

theorem replay_copyDeeds (s : System) (page : UInt8) :
    s.replay (s.copyDeeds page) = s.copySprites page := by
  unfold copyDeeds copySprites
  rw [replay_append, replay_readDeeds]
  generalize Bus.listBy read s (page.toUInt16 <<< 8) 256 = r
  rfl

/-- The register that starts a copy. -/
theorem write_copy (s : System) (page : UInt8) : s.write 0x4014 page = s.copySprites page := by
  rw [System.write, if_neg (by decide), if_neg (by decide), if_pos (by decide)]

theorem replay_accessDeeds (s : System) (a : Access) : s.replay (s.accessDeeds a) = a.act s := by
  cases a with
  | read addr v => rfl
  | write addr v =>
    have hact : Access.act s (.write addr v) = s.write addr v := rfl
    by_cases h : addr = 0x4014
    · rw [accessDeeds, dif_pos h, replay_copyDeeds, hact, h, write_copy]
    · rw [accessDeeds, dif_neg h, hact]
      rfl

theorem replay_accessesDeeds (s : System) (as : List Access) :
    s.replay (s.accessesDeeds as) = as.foldl Access.act s := by
  induction as generalizing s with
  | nil => rfl
  | cons a as ih => rw [accessesDeeds, replay_append, replay_accessDeeds, ih, List.foldl_cons]

theorem accessesDeeds_append (s : System) (as bs : List Access) :
    s.accessesDeeds (as ++ bs) =
      s.accessesDeeds as ++ (as.foldl Access.act s).accessesDeeds bs := by
  induction as generalizing s with
  | nil => rfl
  | cons a as ih => rw [List.cons_append, accessesDeeds, ih, accessesDeeds, List.append_assoc,
      List.foldl_cons]

theorem toNat_stackAddr_lt (sp : UInt8) : (Machine.stackAddr sp).toNat < 0x200 := by
  have hsp : sp.toNat < 2 ^ 9 := Nat.lt_trans sp.toNat_lt (by decide)
  have hor : (Machine.stackAddr sp).toNat = 0x100 ||| sp.toNat := UInt16.toNat_or _ _
  rw [hor]
  exact Nat.or_lt_two_pow (by decide) hsp

theorem isQuiet_accessesDeeds (s : System) {as : List Access} (h : ∀ a ∈ as, a.IsQuiet) :
    ∀ d ∈ s.accessesDeeds as, d.IsQuiet := by
  induction as generalizing s with
  | nil => exact fun d hd => absurd hd List.not_mem_nil
  | cons a as ih =>
    intro d hd
    rw [accessesDeeds, List.mem_append] at hd
    rcases hd with hd | hd
    · have ha := h a List.mem_cons_self
      cases a with
      | read addr v =>
        rw [accessDeeds, List.mem_singleton] at hd
        rw [hd]
        trivial
      | write addr v =>
        obtain ⟨sp, rfl⟩ := ha
        have hne : Machine.stackAddr sp ≠ 0x4014 := by
          intro he
          have hlt := toNat_stackAddr_lt sp
          rw [he] at hlt
          exact absurd hlt (by decide)
        rw [accessDeeds, dif_neg hne, List.mem_singleton] at hd
        rw [hd]
        exact ⟨sp, rfl⟩
    · exact ih _ (fun a ha => h a (List.mem_cons_of_mem _ ha)) d hd

/-- A reset reads the address of the program, and no more. -/
theorem isQuiet_resetAccesses (m : Machine System) :
    ∀ d ∈ m.bus.accessesDeeds m.resetAccesses, d.IsQuiet :=
  isQuiet_accessesDeeds _ (Recorder.isQuiet_of_quiet (Bus.Quiet.refl.reset (m := m.recording)))

theorem isQuiet_readDeeds (addr : UInt16) (n : Nat) : ∀ d ∈ readDeeds addr n, d.IsQuiet := by
  induction n generalizing addr with
  | zero => exact fun d hd => absurd hd List.not_mem_nil
  | succ n ih =>
    intro d hd
    rw [readDeeds, List.mem_cons] at hd
    rcases hd with rfl | hd
    · trivial
    · exact ih _ d hd

/-- The accesses of an instruction, as deeds. -/
theorem accessing_accessesDeeds (s : System) {as quiet : List Access}
    (hquiet : ∀ a ∈ quiet, a.IsQuiet)
    (h : as = quiet ∨ ∃ addr v, as = quiet ++ [.write addr v]) :
    Deed.Accessing (s.accessesDeeds as) := by
  have hdeeds := isQuiet_accessesDeeds s hquiet
  rcases h with rfl | ⟨addr, v, rfl⟩
  · exact ⟨_, [], (List.append_nil _).symm, hdeeds, Or.inl rfl⟩
  · rw [accessesDeeds_append, accessesDeeds, accessesDeeds, List.append_nil, accessDeeds]
    split
    · refine ⟨_, _, (List.append_assoc _ _ _).symm, ?_, Or.inr (Or.inr ⟨_, rfl⟩)⟩
      intro d hd
      rw [List.mem_append] at hd
      rcases hd with hd | hd
      · exact hdeeds d hd
      · exact isQuiet_readDeeds _ _ d hd
    · next hne => exact ⟨_, _, rfl, hdeeds, Or.inr (Or.inl ⟨addr, hne, v, rfl⟩)⟩

/-! ### Time -/

/-- A cycle of the processor. -/
def tickOneDeeds (s : System) : List Deed :=
  [.dot, .dot, .dot, .sound] ++ (if s.apu.dmc.tick.wants then [.fetch] else []) ++ [.clock]

/-- So many cycles of the processor. -/
def tickDeeds (s : System) : Nat → List Deed
  | 0 => []
  | n + 1 => s.tickOneDeeds ++ s.tickOne.tickDeeds n

/-- A wait of the processor, at most `fuel` cycles. -/
def drainDeeds (s : System) : (fuel : Nat) → List Deed
  | 0 => []
  | fuel + 1 =>
    if s.stall = 0 then []
    else
      let waited : System := { s with stall := s.stall - 1 }
      .wait :: (waited.tickOneDeeds ++ waited.tickOne.drainDeeds fuel)

theorem feedSamples_of_not_wants {s : System} (h : s.apu.dmc.wants = false) :
    s.feedSamples = s := by
  unfold feedSamples
  rw [Apu.Dmc.fetchAddress_eq_none h]

theorem replay_tickOneDeeds (s : System) : s.replay s.tickOneDeeds = s.tickOne := by
  have hdmc : ∀ q : System, ({ q with apu := q.apu.tick } : System).apu.dmc = q.apu.dmc.tick :=
    fun q => Apu.dmc_tick q.apu
  unfold tickOneDeeds
  split
  · rfl
  · next h =>
    rw [Bool.not_eq_true] at h
    have hfeed : ({ s.threeDots with apu := s.apu.tick } : System).feedSamples =
        { s.threeDots with apu := s.apu.tick } := by
      refine feedSamples_of_not_wants ?_
      change s.apu.tick.dmc.wants = false
      rw [Apu.dmc_tick, h]
    unfold tickOne
    change _ = { ({ s.threeDots with apu := s.apu.tick } : System).feedSamples with
      board := ({ s.threeDots with apu := s.apu.tick } : System).feedSamples.board.clockCycle
      cycles := ({ s.threeDots with apu := s.apu.tick } : System).feedSamples.cycles + 1 }
    rw [hfeed]
    rfl

theorem replay_tickDeeds (s : System) (n : Nat) : s.replay (s.tickDeeds n) = s.tick n := by
  induction n generalizing s with
  | zero => rfl
  | succ n ih => rw [tickDeeds, replay_append, replay_tickOneDeeds, ih, tick]

theorem replay_drainDeeds (s : System) (done fuel : Nat) :
    s.replay (s.drainDeeds fuel) = (s.drainWithin done fuel).2 := by
  induction fuel generalizing s done with
  | zero => rfl
  | succ fuel ih =>
    unfold drainDeeds drainWithin
    split
    · rfl
    · simp only [replay_cons, replay_append, Deed.act, replay_tickOneDeeds]
      exact ih _ _

end System

end Nes
