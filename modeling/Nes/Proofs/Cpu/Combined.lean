import Nes.Proofs.Cpu.Return

/-!
# The combined operations

Some of the undocumented operations do the work of two documented ones (`Mnemonic.parts`): six
replace a byte in memory and then calculate with its new value, and `LAX` loads two registers at
once.  The second operation reads what the first one has written, at whatever address this is
(`Machine.workAt_of_modify`), so that working as a combined operation is the same as working as one
part and then as the other (`Machine.workAt_parts`).

For programs this means the following.  An instruction works at its effective address
(`Machine.execute_of_computes`), and what its operation makes of the registers and the memory does
not depend on where the program is and when (`SameState.workAt`).  A combined instruction and two
documented ones that face the same address, whatever modes they name it by, thus leave the same
registers, flags and memory (`Machine.combined_eq_parts`).
-/

namespace Nes

theorem Memory.get_set (m : Memory) (addr other : UInt16) (v : UInt8) :
    (m.set addr v).get other = if addr = other then v else m.get other := by
  split
  · next heq => rw [heq, get_set_self]
  · next hne => exact get_set_of_ne m v hne

namespace Cpu

/-- The two operations that a combined one stands for, in the order in which they work. -/
def Mnemonic.parts : Mnemonic → Option (Mnemonic × Mnemonic)
  | slo => some (asl, ora)
  | rla => some (rol, and)
  | sre => some (lsr, eor)
  | rra => some (ror, adc)
  | dcp => some (dec, cmp)
  | isc => some (inc, sbc)
  | lax => some (lda, tax)
  | _ => none

namespace Action

/-- The operations that read or replace a byte or leave the bus alone, and go nowhere. -/
def computes : Action → Bool
  | read _ | modify _ | internal _ => true
  | _ => false

/-- The operations on registers, which have no operand. -/
def isInternal : Action → Bool
  | internal _ => true
  | _ => false

end Action

theorem Mnemonic.computes_of_parts {op first second : Mnemonic}
    (hparts : op.parts = some (first, second)) :
    op.action.computes = true ∧ first.action.computes = true ∧ second.action.computes = true := by
  cases op <;> cases hparts <;> exact ⟨rfl, rfl, rfl⟩

/-- The combined operations never work on the accumulator in place of memory. -/
theorem Instruction.parts_table :
    ∀ i ∈ table, i.mnemonic.parts.isSome = true → i.mode ≠ .accumulator := by
  decide +kernel

/-! ### Registers without place and time -/

/-- Two processors with the same registers, which may be at different places of their programs. -/
structure SameRegisters (c d : Cpu) : Prop where
  /-- The accumulators are equal. -/
  a : d.a = c.a
  /-- The first index registers are equal. -/
  x : d.x = c.x
  /-- The second index registers are equal. -/
  y : d.y = c.y
  /-- The stack pointers are equal. -/
  sp : d.sp = c.sp
  /-- All flags are equal. -/
  status : d.status = c.status

namespace SameRegisters

variable {c d e : Cpu}

theorem symm (h : SameRegisters c d) : SameRegisters d c :=
  ⟨h.a.symm, h.x.symm, h.y.symm, h.sp.symm, h.status.symm⟩

theorem trans (h : SameRegisters c d) (h' : SameRegisters d e) : SameRegisters c e :=
  ⟨h'.a.trans h.a, h'.x.trans h.x, h'.y.trans h.y, h'.sp.trans h.sp, h'.status.trans h.status⟩

theorem eq (h : SameRegisters c d) :
    d = { c with pc := d.pc, cycles := d.cycles, halted := d.halted } := by
  obtain ⟨ha, hx, hy, hsp, hstatus⟩ := h
  rw [← ha, ← hx, ← hy, ← hsp, ← hstatus]

end SameRegisters

/-- What an operation computes follows from the registers, wherever the program is. -/
def Action.Placeless : Action → Prop
  | .read f => ∀ c d v, SameRegisters c d → SameRegisters (f c v) (f d v)
  | .modify f => ∀ c d v, SameRegisters c d →
      (f d v).1 = (f c v).1 ∧ SameRegisters (f c v).2 (f d v).2
  | .internal f => ∀ c d, SameRegisters c d → SameRegisters (f c) (f d)
  | _ => True

theorem Mnemonic.placeless (op : Mnemonic) : op.action.Placeless := by
  cases op <;> first
    | exact trivial
    | exact fun c d v h => by rw [h.eq]; exact ⟨rfl, rfl, rfl, rfl, rfl⟩
    | exact fun c d v h => by rw [h.eq]; exact ⟨rfl, rfl, rfl, rfl, rfl, rfl⟩
    | exact fun c d h => by rw [h.eq]; exact ⟨rfl, rfl, rfl, rfl, rfl⟩

end Cpu

open Cpu

/-- Two machines with the same registers and memory. -/
structure SameState (m n : Machine Memory) : Prop where
  /-- The registers are equal. -/
  registers : SameRegisters m.cpu n.cpu
  /-- The memories are equal. -/
  bus : n.bus = m.bus

namespace SameState

variable {m n k : Machine Memory}

theorem symm (h : SameState m n) : SameState n m := ⟨h.registers.symm, h.bus.symm⟩

theorem trans (h : SameState m n) (h' : SameState n k) : SameState m k :=
  ⟨h.registers.trans h'.registers, h'.bus.trans h.bus⟩

instance : Trans SameState SameState SameState := ⟨trans⟩

theorem of_jump (m : Machine Memory) (addr : UInt16) : SameState m (m.jump addr) :=
  ⟨⟨rfl, rfl, rfl, rfl, rfl⟩, rfl⟩

theorem of_spend (m : Machine Memory) (cycles : Nat) : SameState m (m.spend cycles) :=
  ⟨⟨rfl, rfl, rfl, rfl, rfl⟩, rfl⟩

end SameState

/-! ### Work at an address -/

namespace Machine

/-- The machine after an operation has worked at an address, whichever mode has found it. -/
def workAt (m : Machine Memory) (op : Mnemonic) (addr : UInt16) : Machine Memory :=
  (m.perform op.action .absolute (.plain addr)).2

/-- The address that an instruction at the program counter works at. -/
def effective (m : Machine Memory) (opcode : UInt8) : UInt16 :=
  (Operand.resolve (Instruction.ofOpcode opcode).mode m.cpu (m.cpu.pc + 1) m.bus).1.addr

variable {m n : Machine Memory} {op first second : Mnemonic}

/-- Except for the accumulator, the mode of an operand matters by the address it gives only. -/
theorem perform_of_computes (m : Machine Memory) {action : Action} {mode : Mode}
    (hcomputes : action.computes = true) (hmode : mode ≠ .accumulator) (o : Operand) :
    m.perform action mode o = (0, (m.perform action .absolute (.plain o.addr)).2) := by
  cases action with
  | read f => rfl
  | modify f =>
    simp only [perform, beq_iff_eq, hmode, reduceCtorEq, ↓reduceIte]
    rfl
  | internal f => rfl
  | _ => cases hcomputes

/-- An operation on the registers works anywhere. -/
theorem workAt_of_isInternal (m : Machine Memory) (hinternal : op.action.isInternal = true)
    (addr other : UInt16) : m.workAt op addr = m.workAt op other := by
  rw [workAt, workAt]
  cases haction : op.action with
  | internal f => rfl
  | _ =>
    rw [haction] at hinternal
    cases hinternal

/-- Replacing a byte and calculating with its new value at once is the same as replacing it and then
reading it again. -/
theorem workAt_of_modify {replace change : Cpu → UInt8 → UInt8 × Cpu} {use : Cpu → UInt8 → Cpu}
    (hop : op.action = .modify replace) (hfirst : first.action = .modify change)
    (hsecond : second.action = .read use)
    (hboth : ∀ c v, replace c v = ((change c v).1, use (change c v).2 (change c v).1))
    (m : Machine Memory) (addr : UInt16) :
    m.workAt op addr = (m.workAt first addr).workAt second addr := by
  obtain ⟨cpu, memory⟩ := m
  let changed := change cpu (memory.get addr)
  have hreplaced : (⟨cpu, memory⟩ : Machine Memory).workAt op addr =
      ⟨use changed.2 changed.1, memory.set addr changed.1⟩ := by
    rw [workAt, hop]
    change (⟨(replace cpu (memory.get addr)).2,
      memory.set addr (replace cpu (memory.get addr)).1⟩ : Machine Memory) = _
    rw [hboth]
  have hchanged : (⟨cpu, memory⟩ : Machine Memory).workAt first addr =
      ⟨changed.2, memory.set addr changed.1⟩ := by
    rw [workAt, hfirst]
    rfl
  -- The byte that the second operation reads is the one that the first has just written.
  have hread : (memory.set addr changed.1).get addr = changed.1 := Memory.get_set_self _ _ _
  rw [hreplaced, hchanged, workAt, hsecond]
  change _ = (⟨use changed.2 ((memory.set addr changed.1).get addr),
    memory.set addr changed.1⟩ : Machine Memory)
  rw [hread]

/-- A combined operation works as its two parts do, one after the other. -/
theorem workAt_parts (hparts : op.parts = some (first, second)) (m : Machine Memory)
    (addr : UInt16) : m.workAt op addr = (m.workAt first addr).workAt second addr := by
  cases op <;> cases hparts
  case lax => rfl
  all_goals exact workAt_of_modify rfl rfl rfl (fun _ _ => rfl) m addr

end Machine

theorem SameState.workAt {m n : Machine Memory} (h : SameState m n) {op : Mnemonic}
    (hcomputes : op.action.computes = true) (addr : UInt16) :
    SameState (m.workAt op addr) (n.workAt op addr) := by
  obtain ⟨c, memory⟩ := m
  obtain ⟨d, memory'⟩ := n
  obtain ⟨hregisters, hbus⟩ := h
  have hplaceless := op.placeless
  simp only [Machine.workAt]
  change memory' = memory at hbus
  subst hbus
  cases haction : op.action with
  | read f =>
    rw [haction] at hplaceless
    exact ⟨hplaceless c d _ hregisters, rfl⟩
  | modify f =>
    rw [haction] at hplaceless
    obtain ⟨hvalue, hsame⟩ := hplaceless c d (memory'.get addr) hregisters
    exact ⟨hsame, congrArg (memory'.set addr) hvalue⟩
  | internal f =>
    rw [haction] at hplaceless
    exact ⟨hplaceless c d hregisters, rfl⟩
  | _ =>
    rw [haction] at hcomputes
    cases hcomputes

/-! ### Instructions -/

namespace Machine

variable {m n : Machine Memory} {op first second : Mnemonic} {addr : UInt16}

/-- The processor goes on with an operation on the byte at an address. -/
structure Faces (m : Machine Memory) (op : Mnemonic) (addr : UInt16) : Prop where
  /-- The processor has not been stopped. -/
  running : m.cpu.halted = false
  /-- The operation comes next. -/
  mnemonic : m.next.mnemonic = op
  /-- It works on memory. -/
  mode : m.next.mode ≠ .accumulator
  /-- Its operand, if it has one, is at the address. -/
  addr : op.action.isInternal = false → m.effective (m.bus.get m.cpu.pc) = addr

theorem Faces.of_opcode {opcode : UInt8} (hgoes : m.cpu.halted = false)
    (hopcode : m.bus.get m.cpu.pc = opcode) (hop : (Instruction.ofOpcode opcode).mnemonic = op)
    (hmode : (Instruction.ofOpcode opcode).mode ≠ .accumulator)
    (haddr : m.effective opcode = addr) : m.Faces op addr := by
  subst hopcode
  exact ⟨hgoes, hop, hmode, fun _ => haddr⟩

/-- Finding an operand leaves memory as it is. -/
theorem resolve_memory (mode : Mode) (c : Cpu) (pc : UInt16) (memory : Memory) :
    (Operand.resolve mode c pc memory).2 = memory := by
  cases mode <;> rfl

/-- An instruction goes on to the one after it and works at its effective address. -/
theorem execute_of_computes (m : Machine Memory) {opcode : UInt8}
    (hcomputes : (Instruction.ofOpcode opcode).mnemonic.action.computes = true)
    (hmode : (Instruction.ofOpcode opcode).mode ≠ .accumulator) :
    ∃ cycles, m.execute opcode = (.ok cycles,
      ((m.jump (m.cpu.pc + UInt16.ofNat (Instruction.ofOpcode opcode).length)).workAt
        (Instruction.ofOpcode opcode).mnemonic (m.effective opcode)).spend cycles) := by
  obtain ⟨cpu, memory⟩ := m
  simp only [execute]
  split
  · next hjam =>
    rw [hjam] at hcomputes
    cases hcomputes
  · rw [perform_of_computes _ hcomputes hmode, resolve_memory]
    exact ⟨_, rfl⟩

theorem step_of_faces (h : m.Faces op addr) (hcomputes : op.action.computes = true) :
    m.step.1.isOk = true ∧ SameState (m.workAt op addr) m.step.2 := by
  obtain ⟨hgoes, rfl, hmode, haddr⟩ := h
  obtain ⟨cycles, hexecute⟩ := m.execute_of_computes hcomputes hmode
  -- Where the mode gives no address, the operation is one on the registers and works anywhere.
  have hwork : m.workAt m.next.mnemonic addr =
      m.workAt m.next.mnemonic (m.effective (m.bus.get m.cpu.pc)) := by
    cases hinternal : m.next.mnemonic.action.isInternal with
    | true => exact m.workAt_of_isInternal hinternal _ _
    | false => rw [haddr hinternal]
  rw [step_of_running hgoes, hexecute, hwork]
  exact ⟨rfl, ((SameState.of_jump m _).workAt hcomputes _).trans (.of_spend _ cycles)⟩

/-- The state after a combined instruction is the one after its two parts. -/
theorem step_parts (hparts : op.parts = some (first, second)) (hsame : SameState m n)
    (hop : m.Faces op addr) (hfirst : n.Faces first addr) (hsecond : n.step.2.Faces second addr) :
    (m.step.1.isOk = true ∧ n.step.1.isOk = true ∧ n.step.2.step.1.isOk = true) ∧
      SameState m.step.2 n.step.2.step.2 := by
  obtain ⟨hcop, hcfirst, hcsecond⟩ := Mnemonic.computes_of_parts hparts
  obtain ⟨hokop, hstep⟩ := step_of_faces hop hcop
  obtain ⟨hokfirst, hstep1⟩ := step_of_faces hfirst hcfirst
  obtain ⟨hoksecond, hstep2⟩ := step_of_faces hsecond hcsecond
  refine ⟨⟨hokop, hokfirst, hoksecond⟩, ?_⟩
  calc SameState m.step.2 (m.workAt op addr) := hstep.symm
    SameState _ ((n.workAt first addr).workAt second addr) := by
      rw [workAt_parts hparts]
      exact (hsame.workAt hcfirst addr).workAt hcsecond addr
    SameState _ (n.step.2.workAt second addr) := hstep1.workAt hcsecond addr
    SameState _ n.step.2.step.2 := hstep2

/-! ### The second opcode of `SBC` -/

/-- An `SBC` of the byte after its opcode, by whichever opcode. -/
theorem step_sbc (cpu : Cpu) (memory : Memory) {opcode : UInt8}
    (hopcode : Instruction.ofOpcode opcode = ⟨.sbc, .immediate, 2⟩) (hgoes : cpu.halted = false) :
    (⟨cpu, memory.set cpu.pc opcode⟩ : Machine Memory).step =
      (.ok 2, ⟨{ cpu.add (~~~(memory.get (cpu.pc + 1))) with
        pc := cpu.pc + 2
        cycles := cpu.cycles + 2 }, memory.set cpu.pc opcode⟩) := by
  have hafter : cpu.pc ≠ cpu.pc + 1 := by grind
  have hoperand : (memory.set cpu.pc opcode).get (cpu.pc + 1) = memory.get (cpu.pc + 1) :=
    Memory.get_set_of_ne _ _ hafter
  rw [step_of_running hgoes, Memory.get_set_self, execute]
  simp only [hopcode]
  rw [← hoperand]
  rfl

/-! ### Combined operations in programs -/

/-- **The combined operations equal their parts.**  Every opcode of a combined operation, in each of
its modes and from every state, works at its effective address as its two parts do there.  And when
two machines have the same registers, flags and memory, and one of them comes to a combined
operation on a byte, the other to instructions for the parts that find the same byte, in whichever
modes, then they have the same registers, flags and memory again.  The byte may be anywhere, on the
stack and in the pointer of the instruction too.  The opcode `$EB` does in every state what `$E9`
does. -/
theorem combined_eq_parts :
    (∀ (opcode : UInt8) (first second : Mnemonic),
      (Instruction.ofOpcode opcode).mnemonic.parts = some (first, second) →
      ∀ m : Machine Memory, ∃ cycles, m.execute opcode = (.ok cycles,
        (((m.jump (m.cpu.pc + UInt16.ofNat (Instruction.ofOpcode opcode).length)).workAt first
          (m.effective opcode)).workAt second (m.effective opcode)).spend cycles)) ∧
    (∀ (op first second : Mnemonic) (addr : UInt16) (m n : Machine Memory),
      op.parts = some (first, second) → SameState m n →
      m.Faces op addr → n.Faces first addr → n.step.2.Faces second addr →
      (m.step.1.isOk = true ∧ n.step.1.isOk = true ∧ n.step.2.step.1.isOk = true) ∧
        SameState m.step.2 n.step.2.step.2) ∧
    (∀ (cpu : Cpu) (memory : Memory), ∃ after, ∀ opcode ∈ [0xEB, 0xE9],
      let m : Machine Memory := ⟨cpu, memory.set cpu.pc opcode⟩
      m.step.2 = ⟨after, m.bus⟩ ∧ (cpu.halted = false → m.step.1 = .ok 2)) := by
  refine ⟨?opcodes, ?programs, ?sbc⟩
  case opcodes =>
    intro opcode first second hparts m
    have hmode : (Instruction.ofOpcode opcode).mode ≠ .accumulator :=
      Instruction.parts_table _ (Array.getElem_mem _) (by rw [hparts]; rfl)
    obtain ⟨cycles, hexecute⟩ :=
      m.execute_of_computes (Mnemonic.computes_of_parts hparts).1 hmode
    exact ⟨cycles, by rw [hexecute, workAt_parts hparts]⟩
  case programs =>
    intro op first second addr m n hparts hsame hop hfirst hsecond
    exact step_parts hparts hsame hop hfirst hsecond
  case sbc =>
    -- Only the operand can tell the programs apart, and it lies after the opcode.
    intro cpu memory
    cases hhalted : cpu.halted with
    | true =>
      refine ⟨cpu, fun opcode _ => ⟨?_, fun hgoes => Bool.noConfusion hgoes⟩⟩
      rw [step_halted (shows_next _) hhalted]
    | false =>
      have hform : ∀ opcode ∈ [0xEB, 0xE9],
          Instruction.ofOpcode opcode = ⟨.sbc, .immediate, 2⟩ := by decide +kernel
      refine ⟨{ cpu.add (~~~(memory.get (cpu.pc + 1))) with
        pc := cpu.pc + 2
        cycles := cpu.cycles + 2 }, fun opcode hmem => ?_⟩
      have hstep := step_sbc cpu memory (hform opcode hmem) hhalted
      exact ⟨congrArg Prod.snd hstep, fun _ => congrArg Prod.fst hstep⟩

/-- A `SLO` by a pointer that is itself the byte worked at, and `ASL` and `ORA` of this byte. -/
theorem combined_eq_parts_pointer :
    let memory := ((((((Memory.zero.set 0x00 0x03).set 0x01 0x10).set 0x10 0x10).set
      0x30 0x06).set 0x31 0x10).set 0x32 0x05).set 0x33 0x10
    let m : Machine Memory := ⟨{ pc := 0x00 }, memory⟩
    let n : Machine Memory := ⟨{ pc := 0x30 }, memory⟩
    (∃ cycles, m.execute 0x03 = (.ok cycles,
      (((m.jump 0x02).workAt .asl (m.effective 0x03)).workAt .ora (m.effective 0x03)).spend
        cycles)) ∧
      SameState m.step.2 n.step.2.step.2 := by
  intro memory m n
  have hslo : memory.get 0x00 = 0x03 ∧ memory.get 0x01 = 0x10 := by
    simp [memory, Memory.get_set]
  have hpointer : memory.get 0x10 = 0x10 ∧ memory.get 0x11 = 0x00 := by
    simp [memory, Memory.get_set, Memory.get_zero]
  have hasl : memory.get 0x30 = 0x06 ∧ memory.get 0x31 = 0x10 := by
    simp [memory, Memory.get_set]
  have hora : memory.get 0x32 = 0x05 ∧ memory.get 0x33 = 0x10 := by
    simp [memory, Memory.get_set]
  have hop : m.Faces .slo 0x10 := by
    refine .of_opcode rfl hslo.1 rfl (by decide) ?_
    change wordOf (memory.get (memory.get 0x01 + 0).toUInt16)
      (memory.get (memory.get 0x01 + 0 + 1).toUInt16) = 0x10
    rw [hslo.2]
    change wordOf (memory.get 0x10) (memory.get 0x11) = 0x10
    rw [hpointer.1, hpointer.2]
    rfl
  have hfirst : n.Faces .asl 0x10 :=
    .of_opcode rfl hasl.1 rfl (by decide) (congrArg UInt8.toUInt16 hasl.2)
  have hexecute : n.step = n.execute 0x06 := by
    rw [step_of_running rfl]
    exact congrArg n.execute hasl.1
  have hpc : n.step.2.cpu.pc = 0x32 := by rw [hexecute]; rfl
  have hgoes : n.step.2.cpu.halted = false := by rw [hexecute]; rfl
  have hbus : n.step.2.bus = memory.set 0x10 _ := (step_of_faces hfirst rfl).2.bus
  -- The `ASL` has not changed the `ORA`, which lies elsewhere.
  have hsecond : n.step.2.Faces .ora 0x10 := by
    have hopcode : n.step.2.bus.get n.step.2.cpu.pc = 0x05 := by
      rw [hpc, hbus, Memory.get_set_of_ne _ _ (by decide), hora.1]
    refine .of_opcode hgoes hopcode rfl (by decide) ?_
    change (n.step.2.bus.get (n.step.2.cpu.pc + 1)).toUInt16 = 0x10
    rw [hpc, hbus, Memory.get_set_of_ne _ _ (by decide)]
    exact congrArg UInt8.toUInt16 hora.2
  exact ⟨combined_eq_parts.1 0x03 .asl .ora rfl m,
    (combined_eq_parts.2.1 .slo .asl .ora 0x10 m n rfl ⟨⟨rfl, rfl, rfl, rfl, rfl⟩, rfl⟩
      hop hfirst hsecond).2⟩

end Machine

end Nes
