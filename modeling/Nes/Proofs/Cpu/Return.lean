import Nes.Proofs.Cpu.Jam
import Nes.Proofs.Cpu.Stack
import Nes.Proofs.Cpu.Timing

/-!
# Returns undo entries

A routine is entered through a `JSR`, a `BRK` or an interrupt, which push an address and, but for
`JSR`, the status (`Call.pushed`).  Whatever instructions are executed then, if they leave the stack
as it was after the entry and lead to the return that belongs to it (`Call.Settled`), that return
gives the stack pointer, the place to go on and the status as they were before (`Call.Undone`).

The processor must not have been stopped (`Machine.return_undoes`).  One that was can still be
interrupted, but does not execute the return (`Machine.return_stuck`).  It is not stopped on the
way: where a `JAM` has stopped a processor, there stands the `JAM` (`Machine.StoppedAtJam`), and not
a return.
-/

namespace Nes

namespace Cpu

@[simp] theorem Status.pulled_pushed (s : Status) (byInstruction : Bool) :
    pulled (s.pushed byInstruction) = { s with unused := true, brk := false } := by
  rw [pulled, pushed, ofByte_toByte]

theorem Mnemonic.eq_jam_of_action {m : Mnemonic} (h : m.action = .jam) : m = .jam := by
  cases m <;> first
    | rfl
    | exact nomatch h

/-- Each of the operations that enter and leave routines has a single form. -/
theorem Instruction.form_table : ∀ i ∈ table,
    (i.mnemonic = .jsr → i = ⟨.jsr, .absolute, 6⟩) ∧
    (i.mnemonic = .brk → i = ⟨.brk, .implied, 7⟩) ∧
    (i.mnemonic = .rts → i = ⟨.rts, .implied, 6⟩) ∧
    (i.mnemonic = .rti → i = ⟨.rti, .implied, 6⟩) := by
  decide +kernel

end Cpu

namespace Machine

open Cpu

section

variable {β : Type} [Bus β]

/-- The machine after so many instructions. -/
def steps (m : Machine β) : Nat → Machine β
  | 0 => m
  | n + 1 => m.step.2.steps n

end

/-- The instruction at the program counter. -/
def next (m : Machine Memory) : Instruction := Instruction.ofOpcode (m.bus.get m.cpu.pc)

variable {m : Machine Memory}

theorem shows_next (m : Machine Memory) : Bus.Shows m.bus m.cpu.pc (m.bus.get m.cpu.pc) := rfl

theorem step_of_running (hgoes : m.cpu.halted = false) :
    m.step = m.execute (m.bus.get m.cpu.pc) := by
  rw [step, fetch_of_shows m.shows_next]
  simp only [hgoes, Bool.false_eq_true, ↓reduceIte]

theorem next_form : (m.next.mnemonic = .jsr → m.next = ⟨.jsr, .absolute, 6⟩) ∧
    (m.next.mnemonic = .brk → m.next = ⟨.brk, .implied, 7⟩) ∧
    (m.next.mnemonic = .rts → m.next = ⟨.rts, .implied, 6⟩) ∧
    (m.next.mnemonic = .rti → m.next = ⟨.rti, .implied, 6⟩) :=
  Instruction.form_table _ (Array.getElem_mem _)

/-! ### Where a processor has stopped -/

/-- A processor that has stopped stands before the `JAM` that has stopped it. -/
def StoppedAtJam (m : Machine Memory) : Prop := m.cpu.halted = true → m.next.mnemonic = .jam

theorem StoppedAtJam.of_running (hgoes : m.cpu.halted = false) : m.StoppedAtJam := fun hhalted => by
  rw [hgoes] at hhalted
  cases hhalted

theorem StoppedAtJam.step (h : m.StoppedAtJam) : m.step.2.StoppedAtJam := by
  cases hhalted : m.cpu.halted with
  | true =>
    rw [step_halted m.shows_next hhalted]
    exact h
  | false =>
    by_cases hjam : m.next.mnemonic = .jam
    · rw [step_jam m.shows_next hhalted hjam]
      exact fun _ => hjam
    · refine .of_running ?_
      have htimed := m.timed_execute hhalted (m.bus.get m.cpu.pc)
      rw [step_of_running hhalted]
      cases hresult : (m.execute (m.bus.get m.cpu.pc)).1 with
      | ok n =>
        rw [hresult] at htimed
        exact htimed.2.2.2
      | error j =>
        rw [execute] at hresult
        split at hresult
        · next haction => exact absurd (Mnemonic.eq_jam_of_action haction) hjam
        · cases hresult

theorem StoppedAtJam.steps (h : m.StoppedAtJam) (n : Nat) : (m.steps n).StoppedAtJam := by
  induction n generalizing m with
  | zero => exact h
  | succ n ih => exact ih h.step

/-! ### Entries and returns -/

theorem enter_holds (m : Machine Memory) (kind : Interrupt) :
    (m.enter kind).Holds
      [m.cpu.status.pushed (kind == .brk), lowByte m.cpu.pc, highByte m.cpu.pc] :=
  (m.holds_nil.pushWord (by decide) m.cpu.pc).push (show 2 < 255 by decide) _

/-- An interrupt changes the page of the stack only. -/
theorem get_enter (m : Machine Memory) (kind : Interrupt) {addr : UInt16}
    (haddr : highByte addr ≠ 1) : (m.enter kind).bus.get addr = m.bus.get addr := by
  change (((m.push (highByte m.cpu.pc)).push (lowByte m.cpu.pc)).push
    (m.cpu.status.pushed (kind == .brk))).bus.get addr = _
  rw [get_push _ _ haddr, get_push _ _ haddr, get_push _ _ haddr]

/-- The handler is where the vector says, if the vector is not on the stack. -/
theorem pc_enter (m : Machine Memory) (kind : Interrupt) :
    (m.enter kind).cpu.pc = wordOf (m.bus.get kind.vector) (m.bus.get (kind.vector + 1)) := by
  have hvector : highByte kind.vector ≠ 1 ∧ highByte (kind.vector + 1) ≠ 1 := by
    cases kind <;> decide
  rw [← m.get_enter kind hvector.1, ← m.get_enter kind hvector.2]
  rfl

theorem step_jsr (hgoes : m.cpu.halted = false) (hjsr : m.next.mnemonic = .jsr) :
    ∃ target, m.step.2 =
      (((⟨{ m.cpu with pc := m.cpu.pc + 3 }, m.bus⟩ : Machine Memory).pushWord
        (m.cpu.pc + 2)).jump target).spend 6 := by
  have hform : Instruction.ofOpcode (m.bus.get m.cpu.pc) = ⟨.jsr, .absolute, 6⟩ :=
    next_form.1 hjsr
  have hlast : m.cpu.pc + 3 - 1 = m.cpu.pc + 2 := by grind
  rw [step_of_running hgoes, execute]
  simp only [hform]
  refine ⟨(Operand.resolve (.absolute) m.cpu (m.cpu.pc + 1) m.bus).1.addr, ?_⟩
  rw [← hlast]
  rfl

theorem step_brk (hgoes : m.cpu.halted = false) (hbrk : m.next.mnemonic = .brk) :
    m.step.2 =
      ((⟨{ m.cpu with pc := m.cpu.pc + 2 }, m.bus⟩ : Machine Memory).enter .brk).spend 7 := by
  have hform : Instruction.ofOpcode (m.bus.get m.cpu.pc) = ⟨.brk, .implied, 7⟩ :=
    next_form.2.1 hbrk
  have hpadding : m.cpu.pc + 1 + 1 = m.cpu.pc + 2 := by grind
  rw [step_of_running hgoes, execute]
  simp only [hform]
  rw [← hpadding]
  rfl

theorem step_rts {w : UInt16} (hgoes : m.cpu.halted = false) (hrts : m.next.mnemonic = .rts)
    (hstack : m.Holds [lowByte w, highByte w]) :
    m.step = (.ok 6, ⟨{ m.cpu with
      sp := m.cpu.sp + 2
      pc := w + 1
      cycles := m.cpu.cycles + 6 }, m.bus⟩) := by
  have hform : Instruction.ofOpcode (m.bus.get m.cpu.pc) = ⟨.rts, .implied, 6⟩ :=
    next_form.2.2.1 hrts
  have hpulled := Holds.pullWord (m := m.jump (m.cpu.pc + 1)) hstack
  rw [step_of_running hgoes, execute]
  simp only [hform]
  change (Except.ok 6, ((m.jump (m.cpu.pc + 1)).pullWord.2.jump
    ((m.jump (m.cpu.pc + 1)).pullWord.1 + 1)).spend 6) = _
  rw [hpulled]
  rfl

theorem step_rti {w : UInt16} {p : UInt8} (hgoes : m.cpu.halted = false)
    (hrti : m.next.mnemonic = .rti) (hstack : m.Holds [p, lowByte w, highByte w]) :
    m.step = (.ok 6, ⟨{ m.cpu with
      sp := m.cpu.sp + 3
      pc := w
      status := .pulled p
      cycles := m.cpu.cycles + 6 }, m.bus⟩) := by
  have hform : Instruction.ofOpcode (m.bus.get m.cpu.pc) = ⟨.rti, .implied, 6⟩ :=
    next_form.2.2.2 hrti
  obtain ⟨hpull, hrest⟩ := Holds.pull (m := m.jump (m.cpu.pc + 1)) hstack
  let restored (r : UInt8 × Machine Memory) : Machine Memory :=
    ⟨{ r.2.cpu with status := .pulled r.1 }, r.2.bus⟩
  have hword := Holds.pullWord (m := restored (m.jump (m.cpu.pc + 1)).pull) hrest
  have hsp : m.cpu.sp + 1 + 2 = m.cpu.sp + 3 := UInt8.add_assoc _ _ _
  rw [step_of_running hgoes, execute]
  simp only [hform]
  change (Except.ok 6, ((restored (m.jump (m.cpu.pc + 1)).pull).pullWord.2.jump
    (restored (m.jump (m.cpu.pc + 1)).pull).pullWord.1).spend 6) = _
  rw [hword, hpull, ← hsp]
  rfl

end Machine

/-! ### Entries and their returns -/

namespace Cpu

/-- The ways into a routine. -/
inductive Call
  /-- A `JSR`. -/
  | jsr
  /-- A `BRK`. -/
  | brk
  /-- The interrupt that cannot be masked. -/
  | nmi
  /-- A request that is not masked. -/
  | irq
deriving DecidableEq, Repr

namespace Call

/-- The return that belongs to an entry. -/
def back : Call → Mnemonic
  | jsr => .rts
  | brk | nmi | irq => .rti

/-- Where the program goes on after the return. -/
def resume (pc : UInt16) : Call → UInt16
  | jsr => pc + 3
  | brk => pc + 2
  | nmi | irq => pc

/-- A processor can be made to enter in this way. -/
def Enters (m : Machine Memory) : Call → Prop
  | jsr => m.next.mnemonic = .jsr
  | brk => m.next.mnemonic = .brk
  | nmi => True
  | irq => m.cpu.status.interruptDisable = false

/-- The machine after the entry. -/
def enter (m : Machine Memory) : Call → Machine Memory
  | jsr | brk => m.step.2
  | nmi => (m.interrupt .nmi).2
  | irq => (m.interrupt .irq).2

/-- The bytes that an entry pushes, the last one in front. -/
def pushed (m : Machine Memory) : Call → List UInt8
  | jsr => [lowByte (m.cpu.pc + 2), highByte (m.cpu.pc + 2)]
  | brk => [m.cpu.status.pushed true, lowByte (m.cpu.pc + 2), highByte (m.cpu.pc + 2)]
  | nmi | irq => [m.cpu.status.pushed false, lowByte m.cpu.pc, highByte m.cpu.pc]

/-- The stack is as it was right after the entry, and the return comes next. -/
structure Settled (e : Call) (m m' : Machine Memory) : Prop where
  /-- The stack pointer is the same. -/
  sp : m'.cpu.sp = (e.enter m).cpu.sp
  /-- The bytes that were pushed are on the stack. -/
  stack : m'.Holds (e.pushed m)
  /-- The return is the next instruction. -/
  next : m'.next.mnemonic = e.back

/-- The entry is undone. -/
structure Undone (e : Call) (m m' : Machine Memory) : Prop where
  /-- The stack pointer is the one before the entry. -/
  sp : m'.cpu.sp = m.cpu.sp
  /-- The program goes on. -/
  pc : m'.cpu.pc = e.resume m.cpu.pc
  /-- The status is the one before the entry, if it was pushed. -/
  status : e.back = .rti → m'.cpu.status = m.cpu.status

end Call

end Cpu

namespace Machine

open Cpu

variable {m : Machine Memory} {e : Call}

/-- An entry pushes its bytes and leaves the processor running. -/
theorem entered (hgoes : m.cpu.halted = false) (h : e.Enters m) :
    (e.enter m).Holds (e.pushed m) ∧
      (e.enter m).cpu.sp = m.cpu.sp - UInt8.ofNat (e.pushed m).length ∧
      (e.enter m).cpu.halted = false := by
  have htwo : m.cpu.sp - 1 - 1 = m.cpu.sp - 2 := by grind
  have hthree : m.cpu.sp - 1 - 1 - 1 = m.cpu.sp - 3 := by grind
  cases e with
  | jsr =>
    obtain ⟨target, hstep⟩ := step_jsr hgoes h
    rw [Call.enter, hstep]
    exact ⟨(holds_nil _).pushWord (by decide) (m.cpu.pc + 2), htwo, hgoes⟩
  | brk =>
    rw [Call.enter, step_brk hgoes h]
    exact ⟨enter_holds ⟨{ m.cpu with pc := m.cpu.pc + 2 }, m.bus⟩ .brk, hthree, hgoes⟩
  | nmi => exact ⟨m.enter_holds .nmi, hthree, hgoes⟩
  | irq =>
    have hentered : (m.interrupt .irq).2 = (m.enter .irq).spend 7 := by
      have hopen : m.cpu.status.interruptDisable = false := h
      simp only [interrupt, hopen, Bool.and_false, Bool.false_eq_true, ↓reduceIte]
    rw [Call.enter, hentered]
    exact ⟨m.enter_holds .irq, hthree, hgoes⟩

/-- A return that finds the stack as the entry left it undoes the entry. -/
theorem undone_of_settled {m' : Machine Memory} (hgoes : m.cpu.halted = false)
    (hunused : m.cpu.status.unused = true) (hbrk : m.cpu.status.brk = false) (h : e.Enters m)
    (hgoes' : m'.cpu.halted = false) (hm' : e.Settled m m') :
    m'.step.1 = .ok 6 ∧ e.Undone m m'.step.2 := by
  obtain ⟨hsp, hstack, hnext⟩ := hm'
  rw [(entered hgoes h).2.1] at hsp
  have hstatus : ∀ b, Status.pulled (m.cpu.status.pushed b) = m.cpu.status := by
    intro b
    rw [Status.pulled_pushed, ← hunused, ← hbrk]
  have htwo : m.cpu.sp - 2 + 2 = m.cpu.sp := UInt8.sub_add_cancel _ _
  have hthree : m.cpu.sp - 3 + 3 = m.cpu.sp := UInt8.sub_add_cancel _ _
  cases e with
  | jsr =>
    have hpc : m.cpu.pc + 2 + 1 = m.cpu.pc + 3 := UInt16.add_assoc _ _ _
    rw [step_rts hgoes' hnext hstack, hsp]
    exact ⟨rfl, htwo, hpc, fun hback => nomatch hback⟩
  | brk =>
    rw [step_rti hgoes' hnext hstack, hsp]
    exact ⟨rfl, hthree, rfl, fun _ => hstatus true⟩
  | nmi =>
    rw [step_rti hgoes' hnext hstack, hsp]
    exact ⟨rfl, hthree, rfl, fun _ => hstatus false⟩
  | irq =>
    rw [step_rti hgoes' hnext hstack, hsp]
    exact ⟨rfl, hthree, rfl, fun _ => hstatus false⟩

/-- **Returns undo entries.**  A processor that has not stopped enters a routine, which pushes some
bytes, and executes any number of instructions.  If the stack pointer and these bytes are then as
they were right after the entry and the return of this kind of entry comes next, it is executed, the
stack pointer is the one before the entry, the program goes on where it was left, and the status is
the same as well. -/
theorem return_undoes (e : Call) (m : Machine Memory) (n : Nat) (hgoes : m.cpu.halted = false)
    (hunused : m.cpu.status.unused = true) (hbrk : m.cpu.status.brk = false) (h : e.Enters m)
    (hsettled : e.Settled m ((e.enter m).steps n)) :
    ((e.enter m).Holds (e.pushed m) ∧
      (e.enter m).cpu.sp = m.cpu.sp - UInt8.ofNat (e.pushed m).length) ∧
    ((e.enter m).steps n).step.1 = .ok 6 ∧ e.Undone m ((e.enter m).steps n).step.2 := by
  obtain ⟨hpushed, hsp, hentered⟩ := entered hgoes h
  refine ⟨⟨hpushed, hsp⟩, undone_of_settled hgoes hunused hbrk h ?_ hsettled⟩
  -- A processor that has stopped on the way stands before a `JAM`, but here it is a return.
  have hstopped := (StoppedAtJam.of_running hentered).steps n
  rw [← Bool.not_eq_true]
  intro hhalted
  have hjam := hstopped hhalted
  rw [hsettled.next] at hjam
  cases e <;> exact nomatch hjam

/-- An interrupt whose handler does nothing and returns, with a stack that goes around its page. -/
theorem return_undoes_around :
    let m : Machine Memory := ⟨{ sp := 0x01 }, (Memory.zero.set 0 0xEA).set 1 0x40⟩
    ((Call.nmi.enter m).steps 1).step.1 = .ok 6 ∧
      Call.nmi.Undone m ((Call.nmi.enter m).steps 1).step.2 := by
  intro m
  have hbyte : ∀ addr, addr ≠ 0 → addr ≠ 1 → m.bus.get addr = 0 := by
    intro addr h0 h1
    rw [Memory.get_set_of_ne _ _ h1.symm, Memory.get_set_of_ne _ _ h0.symm, Memory.get_zero]
  have hpc : (Call.nmi.enter m).cpu.pc = 0 := by
    change (m.enter .nmi).cpu.pc = 0
    rw [pc_enter, hbyte _ (by decide) (by decide), hbyte _ (by decide) (by decide)]
    rfl
  have hnop : (Call.nmi.enter m).bus.get 0 = 0xEA := by
    change (m.enter .nmi).bus.get 0 = 0xEA
    rw [get_enter _ _ (by decide), Memory.get_set_of_ne _ _ (by decide), Memory.get_set_self]
  have hrti : (Call.nmi.enter m).bus.get 1 = 0x40 := by
    change (m.enter .nmi).bus.get 1 = 0x40
    rw [get_enter _ _ (by decide), Memory.get_set_self]
  have hstep : (Call.nmi.enter m).steps 1 =
      ((Call.nmi.enter m).jump 1).spend 2 := by
    have hexecute : ∀ m : Machine Memory,
        (m.execute 0xEA).2 = (m.jump (m.cpu.pc + 1)).spend 2 := fun _ => rfl
    rw [steps, steps, step_of_running rfl, hpc, hnop, hexecute, hpc]
    rfl
  have hsettled : Call.nmi.Settled m ((Call.nmi.enter m).steps 1) := by
    have hkept : ∀ (m : Machine Memory) {vs : List UInt8}, m.Holds vs →
        ((m.jump 1).spend 2).Holds vs := fun _ _ h => h
    have hnext : ∀ m : Machine Memory,
        ((m.jump 1).spend 2).next = Instruction.ofOpcode (m.bus.get 1) := fun _ => rfl
    have hsp : ∀ m : Machine Memory, ((m.jump 1).spend 2).cpu.sp = m.cpu.sp := fun _ => rfl
    rw [hstep]
    refine ⟨hsp _, hkept _ (m.enter_holds .nmi), ?_⟩
    rw [hnext, hrti]
    rfl
  exact (return_undoes .nmi m 1 rfl rfl rfl trivial hsettled).2

/-- A processor that has stopped is interrupted, but does not execute the return. -/
theorem return_stuck :
    let m : Machine Memory := ⟨{ halted := true }, Memory.zero.set 0 0x40⟩
    m.cpu.status.unused = true ∧ m.cpu.status.brk = false ∧ Call.nmi.Enters m ∧
      Call.nmi.Settled m ((Call.nmi.enter m).steps 0) ∧
      ((Call.nmi.enter m).steps 0).step.1 = .error ⟨0x40, 0⟩ ∧
      ¬Call.nmi.Undone m ((Call.nmi.enter m).steps 0).step.2 := by
  intro m
  have hbyte : ∀ addr, addr ≠ 0 → m.bus.get addr = 0 := by
    intro addr h0
    rw [Memory.get_set_of_ne _ _ h0.symm, Memory.get_zero]
  have hpc : (Call.nmi.enter m).cpu.pc = 0 := by
    change (m.enter .nmi).cpu.pc = 0
    rw [pc_enter, hbyte _ (by decide), hbyte _ (by decide)]
    rfl
  have hrti : (Call.nmi.enter m).bus.get 0 = 0x40 := by
    change (m.enter .nmi).bus.get 0 = 0x40
    rw [get_enter _ _ (by decide), Memory.get_set_self]
  have hstep := step_halted (Call.nmi.enter m).shows_next rfl
  rw [hpc, hrti] at hstep
  refine ⟨rfl, rfl, trivial, ⟨rfl, m.enter_holds .nmi, ?_⟩, ?_, ?_⟩
  · rw [steps, next, hpc, hrti]
    rfl
  · exact congrArg Prod.fst hstep
  · intro hundone
    have hsp := hundone.sp
    change (Call.nmi.enter m).step.2.cpu.sp = 0xFD at hsp
    rw [hstep] at hsp
    exact absurd hsp (by decide)

end Machine

end Nes
