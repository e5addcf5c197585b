import Nes.Proofs.Cpu.Traffic

/-!
# The marks of a pushed status

The flags `unused` and `brk` tell copies of the status on the stack apart and mean nothing in the
processor.  There the first one is always set and the second one never (`Status.Unmarked`): no
instruction, interrupt or reset changes this, whatever bytes are pulled into the status
(`Machine.Reachable.unmarked`).

So a pushed copy has bit 5 set, and bit 4 if an instruction has pushed it (`StatusPush`), and what
is pulled from an untouched copy is the status that was pushed (`Machine.status_restored`).
-/

namespace Nes

open Cpu

namespace Cpu

/-- The marks of a pushed copy are absent. -/
structure Status.Unmarked (s : Status) : Prop where
  /-- Bit 5 is set, as in every copy. -/
  unused : s.unused = true
  /-- Bit 4 is clear. -/
  brk : s.brk = false

/-- What an operation computes leaves the status without marks. -/
def Action.KeepsUnmarked : Action → Prop
  | .read f | .pull f => ∀ c v, c.status.Unmarked → (f c v).status.Unmarked
  | .writeMasked f => ∀ c, c.status.Unmarked → (f c).2.status.Unmarked
  | .modify f => ∀ c v, c.status.Unmarked → (f c v).2.status.Unmarked
  | .internal f => ∀ c, c.status.Unmarked → (f c).status.Unmarked
  | _ => True

theorem Mnemonic.keepsUnmarked (op : Mnemonic) : op.action.KeepsUnmarked := by
  cases op
  case plp => exact fun _ _ _ => ⟨rfl, rfl⟩
  all_goals first
    | exact trivial
    | exact fun _ _ h => ⟨h.unused, h.brk⟩
    | exact fun _ h => ⟨h.unused, h.brk⟩

theorem Instruction.status_table : ∀ i ∈ table,
    (i.mnemonic = .php → i = ⟨.php, .implied, 3⟩) ∧
    (i.mnemonic = .plp → i = ⟨.plp, .implied, 4⟩) := by
  decide +kernel

theorem Status.pushed_bits (s : Status) (byInstruction : Bool) :
    s.pushed byInstruction &&& 0x20 ≠ 0 ∧
      (s.pushed byInstruction &&& 0x10 ≠ 0 ↔ byInstruction = true) := by
  have hbits : Status.ofByte (s.pushed byInstruction) =
      { s with unused := true, brk := byInstruction } := ofByte_toByte _
  have hunused : (s.pushed byInstruction &&& 0x20 != 0) = true := congrArg Status.unused hbits
  have hbrk : (s.pushed byInstruction &&& 0x10 != 0) = byInstruction := congrArg Status.brk hbits
  refine ⟨bne_iff_ne.1 hunused, ?_⟩
  rw [← bne_iff_ne, hbrk]

end Cpu

namespace Machine

variable {β : Type} [Bus β] {m : Machine β}

/-! ### No run leaves a mark -/

theorem unmarked_perform (h : m.cpu.status.Unmarked) {action : Action}
    (haction : action.KeepsUnmarked) (mode : Mode) (o : Operand) :
    (m.perform action mode o).2.cpu.status.Unmarked := by
  obtain ⟨cpu, bus⟩ := m
  cases action with
  | read f => exact haction _ _ h
  | writeMasked f => exact haction _ h
  | modify f =>
    simp only [perform]
    split <;> exact haction _ _ h
  | internal f => exact haction _ h
  | branch taken =>
    simp only [perform]
    split <;> exact h
  | returnFromInterrupt => exact ⟨rfl, rfl⟩
  | interrupt => exact ⟨h.unused, h.brk⟩
  | pull f => exact haction _ _ h
  | skip =>
    simp only [perform]
    split <;> exact h
  | write | jump | call | returnFromCall | push | jam => exact h

theorem unmarked_execute (h : m.cpu.status.Unmarked) (opcode : UInt8) :
    (m.execute opcode).2.cpu.status.Unmarked := by
  obtain ⟨cpu, bus⟩ := m
  simp only [execute]
  split
  · exact h
  · refine unmarked_perform (m := jump ⟨cpu, _⟩ _) ?_ (Mnemonic.keepsUnmarked _) _ _
    exact h

theorem unmarked_step (h : m.cpu.status.Unmarked) : m.step.2.cpu.status.Unmarked := by
  simp only [step]
  split
  · exact h
  · exact unmarked_execute (m := m.fetch.2) h _

theorem unmarked_stepTraced (h : m.cpu.status.Unmarked) :
    m.stepTraced.2.cpu.status.Unmarked := by
  simp only [stepTraced]
  split
  · exact h
  · refine unmarked_execute (m := ⟨m.fetch.2.cpu, _⟩) ?_ _
    exact h

theorem unmarked_interrupt (h : m.cpu.status.Unmarked) (kind : Interrupt) :
    (m.interrupt kind).2.cpu.status.Unmarked := by
  simp only [interrupt]
  split
  · exact h
  · exact ⟨h.unused, h.brk⟩

/-- A machine whose processor was new once: instructions, traced or not, interrupts and resets have
happened to it, in any order, and in between anything to its bus. -/
inductive Reachable : Machine β → Prop
  /-- A new processor. -/
  | powerOn (bus : β) : Reachable ⟨.powerOn, bus⟩
  /-- An instruction, or an attempt at one. -/
  | step {m : Machine β} (h : Reachable m) : Reachable m.step.2
  /-- The same with a line of a trace. -/
  | stepTraced {m : Machine β} (h : Reachable m) : Reachable m.stepTraced.2
  /-- An interrupt, or a request that is masked. -/
  | interrupt {m : Machine β} (h : Reachable m) (kind : Interrupt) :
    Reachable (m.interrupt kind).2
  /-- A reset. -/
  | reset {m : Machine β} (h : Reachable m) : Reachable m.reset
  /-- The rest of the machine goes on. -/
  | elapse {m : Machine β} (h : Reachable m) (bus : β) : Reachable ⟨m.cpu, bus⟩

theorem Reachable.unmarked (h : m.Reachable) : m.cpu.status.Unmarked := by
  induction h with
  | powerOn bus => exact ⟨rfl, rfl⟩
  | step _ ih => exact unmarked_step ih
  | stepTraced _ ih => exact unmarked_stepTraced ih
  | interrupt _ kind ih => exact unmarked_interrupt ih kind
  | reset _ _ => exact ⟨rfl, rfl⟩
  | elapse _ _ ih => exact ih

/-! ### Copies on the stack -/

/-- The operation that a running processor comes to. -/
def Comes (m : Machine β) (op : Mnemonic) : Prop :=
  m.cpu.halted = false ∧ (Instruction.ofOpcode (Bus.read m.bus m.cpu.pc).1).mnemonic = op

/-- The next instruction pulls the status, and finds this byte in this cell of the stack. -/
def PullsStatus (m : Machine β) (cell : UInt16) (b : UInt8) : Prop :=
  (m.Comes .plp ∨ m.Comes .rti) ∧ m.stepAccesses[1]? = some (.read cell b)

end Machine

/-- The ways to push the status. -/
inductive StatusPush
  /-- A `PHP`. -/
  | php
  /-- A `BRK`. -/
  | brk
  /-- An interrupt. -/
  | interrupt (kind : Interrupt)

namespace StatusPush

variable {β : Type} [Bus β]

/-- The status is pushed in this way. -/
def Happens (m : Machine β) : StatusPush → Prop
  | php => m.Comes .php
  | brk => m.Comes .brk
  | interrupt kind => ¬(kind = .irq ∧ m.cpu.status.interruptDisable = true)

/-- What is accessed then. -/
def accesses (m : Machine β) : StatusPush → List Access
  | php | brk => m.stepAccesses
  | interrupt kind => m.interruptAccesses kind

/-- Where the copy goes; an address may be pushed before it. -/
def cell (m : Machine β) : StatusPush → UInt16
  | php => Machine.stackAddr m.cpu.sp
  | brk | interrupt _ => Machine.stackAddr (m.cpu.sp - 2)

/-- An instruction pushes it. -/
def byInstruction : StatusPush → Bool
  | php | brk | interrupt .brk => true
  | interrupt .nmi | interrupt .irq => false

/-- The copy is what is written last, to its cell. -/
theorem writes_accesses {m : Machine β} {p : StatusPush} (h : p.Happens m) :
    (Access.writes (p.accesses m)).getLast? =
      some (p.cell m, m.cpu.status.pushed p.byInstruction) := by
  have hbelow : m.cpu.sp - 1 - 1 = m.cpu.sp - 2 := by grind
  cases p with
  | php =>
    obtain ⟨hgoes, hop⟩ := h
    have hform := (Instruction.status_table _ (Array.getElem_mem _)).1 hop
    rw [accesses, m.stepAccesses_eq_execute hgoes]
    simp only [Machine.execute, Instruction.ofOpcode, hform]
    rfl
  | brk =>
    obtain ⟨hgoes, hop⟩ := h
    have hform := (Instruction.form_table _ (Array.getElem_mem _)).2.1 hop
    rw [accesses, m.stepAccesses_eq_execute hgoes, cell, ← hbelow]
    simp only [Machine.execute, Instruction.ofOpcode, hform]
    rfl
  | interrupt kind =>
    have hentered : m.recording.interrupt kind =
        (7, (m.recording.enter kind).spend 7) := by
      rw [Machine.interrupt, if_neg]
      rw [Bool.and_eq_true, beq_iff_eq]
      exact h
    rw [accesses, Machine.interruptAccesses, hentered, cell, ← hbelow]
    cases kind <;> rfl

end StatusPush

namespace Machine

variable {β : Type} [Bus β] {m : Machine β}

theorem pulled_plp (h : m.Comes .plp) : ∃ opcode v,
    m.stepAccesses = [.read m.cpu.pc opcode, .read (stackAddr (m.cpu.sp + 1)) v] ∧
      m.step.2.cpu.status = .pulled v := by
  obtain ⟨hgoes, hop⟩ := h
  have hform := (Instruction.status_table _ (Array.getElem_mem _)).2 hop
  rw [m.stepAccesses_eq_execute hgoes, m.step_eq_execute hgoes]
  simp only [execute, Instruction.ofOpcode, hform]
  exact ⟨_, _, rfl, rfl⟩

theorem pulled_rti (h : m.Comes .rti) : ∃ opcode v low high,
    m.stepAccesses = [.read m.cpu.pc opcode, .read (stackAddr (m.cpu.sp + 1)) v,
        .read (stackAddr (m.cpu.sp + 1 + 1)) low, .read (stackAddr (m.cpu.sp + 1 + 1 + 1)) high] ∧
      m.step.2.cpu.status = .pulled v := by
  obtain ⟨hgoes, hop⟩ := h
  have hform := (Instruction.form_table _ (Array.getElem_mem _)).2.2.2 hop
  rw [m.stepAccesses_eq_execute hgoes, m.step_eq_execute hgoes]
  simp only [execute, Instruction.ofOpcode, hform]
  exact ⟨_, _, _, _, rfl, rfl⟩

/-- What is pulled into the status is the byte on the stack. -/
theorem PullsStatus.status {cell : UInt16} {b : UInt8} (h : m.PullsStatus cell b) :
    m.step.2.cpu.status = .pulled b := by
  obtain ⟨hplp | hrti, haccesses⟩ := h
  · obtain ⟨opcode, v, hlist, hstatus⟩ := pulled_plp hplp
    rw [hlist] at haccesses
    cases haccesses
    exact hstatus
  · obtain ⟨opcode, v, low, high, hlist, hstatus⟩ := pulled_rti hrti
    rw [hlist] at haccesses
    cases haccesses
    exact hstatus

/-- **The marks of a copy are never in the processor.**  However a processor has been used since it
was new, bit 5 of its status is set and bit 4 clear.  When it pushes its status, the copy is the
last byte that it writes; bit 5 of it is set, and bit 4 if and only if an instruction has pushed it.
Whenever an instruction pulls the status from the cell of the copy and finds the byte unchanged, the
status is the one that was pushed. -/
theorem status_restored (h : m.Reachable) :
    (m.cpu.status.unused = true ∧ m.cpu.status.brk = false) ∧
    ∀ p : StatusPush, p.Happens m → ∃ b,
      (Access.writes (p.accesses m)).getLast? = some (p.cell m, b) ∧
      b &&& 0x20 ≠ 0 ∧ (b &&& 0x10 ≠ 0 ↔ p.byInstruction = true) ∧
      ∀ m' : Machine β, m'.PullsStatus (p.cell m) b →
        m'.step.2.cpu.status = m.cpu.status := by
  obtain ⟨hunused, hbrk⟩ := h.unmarked
  refine ⟨⟨hunused, hbrk⟩, fun p hp => ⟨_, StatusPush.writes_accesses hp, ?_⟩⟩
  obtain ⟨hfive, hfour⟩ := m.cpu.status.pushed_bits p.byInstruction
  refine ⟨hfive, hfour, fun m' hpulls => ?_⟩
  rw [hpulls.status, Status.pulled_pushed, ← hunused, ← hbrk]

/-- A `PHP` and a `PLP`, with a `CLI` between them. -/
theorem status_restored_php :
    let m : Machine Memory := ⟨.powerOn, Memory.zero.setList 0 [0x08, 0x58, 0x28]⟩
    (m.steps 2).cpu.status ≠ m.cpu.status ∧ (m.steps 3).cpu.status = m.cpu.status := by
  intro m
  obtain ⟨b, hwrites, -, -, hrestored⟩ :=
    (status_restored (Reachable.powerOn m.bus)).2 .php ⟨rfl, rfl⟩
  have hpushed : (Access.writes (StatusPush.php.accesses m)).getLast? = some (0x01FD, 0x34) := by
    decide
  have hb : 0x34 = b := congrArg Prod.snd (Option.some.inj (hpushed.symm.trans hwrites))
  refine ⟨by decide, hrestored (m.steps 2) ⟨.inl ⟨rfl, rfl⟩, ?_⟩⟩
  rw [← hb]
  decide +kernel

end Machine

end Nes
