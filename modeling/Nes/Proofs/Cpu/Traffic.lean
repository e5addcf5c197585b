import Nes.Proofs.Cpu.Accesses
import Nes.Proofs.Cpu.Return

/-!
# The traffic of an instruction

Reads have effects on this machine, so that it matters which addresses an instruction reads, and how
often.  A `Plan` is a row of accesses, each of which may depend on the bytes that the reads before
it answer.  `Cpu.plan` is the plan of the next instruction: the opcode, the bytes of the operand and
of a pointer (`Mode.plan`), and then what the class of the operation asks for
(`Instruction.traffic`, `Traffic.plan`).

An instruction carries out this plan and does nothing else, on every bus and from every state of a
running processor; on flat memory it changes at most three bytes (`Machine.step_traffic`).
-/

namespace Nes

open Cpu

/-! ### Plans -/

/-- Accesses to come, each of which may depend on what the reads before it answer. -/
inductive Plan
  /-- Nothing more. -/
  | done
  /-- A read, and what comes after its answer. -/
  | read (addr : UInt16) (next : UInt8 → Plan)
  /-- A write of some byte, and what comes after it. -/
  | write (addr : UInt16) (next : Plan)

namespace Plan

variable {β : Type} [Bus β]

/-- Carrying out a plan on a bus makes these accesses and leaves the bus in this state. -/
inductive Carried : Plan → β → List Access → β → Prop
  /-- Nothing is done. -/
  | done (bus : β) : Carried .done bus [] bus
  /-- The plan goes on with what the bus answers. -/
  | read {addr : UInt16} {next : UInt8 → Plan} {bus after : β} {accesses : List Access}
      (h : Carried (next (Bus.read bus addr).1) (Bus.read bus addr).2 accesses after) :
      Carried (.read addr next) bus (.read addr (Bus.read bus addr).1 :: accesses) after
  /-- A byte is written. -/
  | write {addr : UInt16} {next : Plan} {bus after : β} {accesses : List Access} (v : UInt8)
      (h : Carried next (Bus.write bus addr v) accesses after) :
      Carried (.write addr next) bus (.write addr v :: accesses) after

/-- A recorder has noted a plan that has been carried out. -/
def Recorded (p : Plan) (r r' : Recorder β) : Prop :=
  ∃ accesses, r'.accesses.toList = r.accesses.toList ++ accesses ∧ p.Carried r.bus accesses r'.bus

namespace Recorded

variable {addr : UInt16} {p : Plan} {next : UInt8 → Plan} {r r' : Recorder β}

theorem done (r : Recorder β) : Plan.done.Recorded r r := ⟨[], (List.append_nil _).symm, .done _⟩

theorem read (h : (next (Bus.read r addr).1).Recorded (Bus.read r addr).2 r') :
    (Plan.read addr next).Recorded r r' := by
  obtain ⟨accesses, hlist, hcarried⟩ := h
  refine ⟨.read addr (Bus.read r.bus addr).1 :: accesses, ?_, .read hcarried⟩
  rw [hlist, Recorder.toList_read, List.append_assoc]
  rfl

theorem write (v : UInt8) (h : p.Recorded (Bus.write r addr v) r') :
    (Plan.write addr p).Recorded r r' := by
  obtain ⟨accesses, hlist, hcarried⟩ := h
  refine ⟨.write addr v :: accesses, ?_, .write v hcarried⟩
  rw [hlist, Recorder.toList_write, List.append_assoc]
  rfl

end Recorded

theorem Carried.of_read {addr : UInt16} {next : UInt8 → Plan} {bus after : β}
    {accesses : List Access} (h : (Plan.read addr next).Carried bus accesses after) :
    ∃ rest, accesses = .read addr (Bus.read bus addr).1 :: rest ∧
      (next (Bus.read bus addr).1).Carried (Bus.read bus addr).2 rest after := by
  cases h with
  | read h => exact ⟨_, rfl, h⟩

/-- However the reads are answered, there are at most so many writes. -/
def WritesAtMost : Nat → Plan → Prop
  | _, done => True
  | n, read _ next => ∀ v, (next v).WritesAtMost n
  | 0, write _ _ => False
  | n + 1, write _ next => next.WritesAtMost n

end Plan

/-! ### The plan of an instruction -/

namespace Cpu

/-- The reads that find the operand of an instruction at the program counter, and what comes after
them. -/
def Mode.plan (c : Cpu) (next : Operand → Plan) : Mode → Plan
  | implied | accumulator => next (.plain 0)
  | immediate => next (.plain (c.pc + 1))
  | zeroPage => .read (c.pc + 1) fun zp => next (.plain zp.toUInt16)
  | zeroPageX => .read (c.pc + 1) fun zp => next (.plain (zp + c.x).toUInt16)
  | zeroPageY => .read (c.pc + 1) fun zp => next (.plain (zp + c.y).toUInt16)
  | absolute => .read (c.pc + 1) fun low => .read (c.pc + 2) fun high =>
      next (.plain (wordOf low high))
  | absoluteX => .read (c.pc + 1) fun low => .read (c.pc + 2) fun high =>
      next ⟨wordOf low high + c.x.toUInt16, wordOf low high⟩
  | absoluteY => .read (c.pc + 1) fun low => .read (c.pc + 2) fun high =>
      next ⟨wordOf low high + c.y.toUInt16, wordOf low high⟩
  -- The pointer stays on its page: only its low byte is counted up.
  | indirect => .read (c.pc + 1) fun low => .read (c.pc + 2) fun high =>
      .read (wordOf low high) fun targetLow => .read (wordOf (low + 1) high) fun targetHigh =>
      next (.plain (wordOf targetLow targetHigh))
  | indirectX => .read (c.pc + 1) fun zp =>
      .read (zp + c.x).toUInt16 fun low => .read (zp + c.x + 1).toUInt16 fun high =>
      next (.plain (wordOf low high))
  | indirectY => .read (c.pc + 1) fun zp =>
      .read zp.toUInt16 fun low => .read (zp + 1).toUInt16 fun high =>
      next ⟨wordOf low high + c.y.toUInt16, wordOf low high⟩
  | relative => .read (c.pc + 1) fun offset =>
      next ⟨Operand.branchTarget (c.pc + 2) offset, c.pc + 2⟩

/-- The classes of operations by what they do to the bus once the operand has been found. -/
inductive Traffic
  /-- The bus is left alone. -/
  | nothing
  /-- The operand is read. -/
  | load
  /-- The operand is written. -/
  | store
  /-- The operand is written, with a byte that may replace the page of its address. -/
  | storeMasked (v : UInt8)
  /-- The operand is read, and then written. -/
  | replace
  /-- A byte is pushed. -/
  | push
  /-- A byte is pulled. -/
  | pull
  /-- An address is pushed. -/
  | call
  /-- An address is pulled. -/
  | returnFromCall
  /-- The status and an address are pulled. -/
  | returnFromInterrupt
  /-- An address and the status are pushed, and the address of the handler is read. -/
  | interrupt

/-- The class of an instruction. -/
def Instruction.traffic (c : Cpu) (i : Instruction) : Traffic :=
  match i.mnemonic with
  | .lda | .ldx | .ldy | .lax | .las => .load
  | .adc | .sbc | .and | .ora | .eor | .cmp | .cpx | .cpy | .bit => .load
  | .anc | .alr | .arr | .axs | .xaa | .lxa => .load
  | .nop => if i.mode = .implied then .nothing else .load
  | .sta | .stx | .sty | .sax => .store
  | .sha | .tas => .storeMasked (c.a &&& c.x)
  | .shx => .storeMasked c.x
  | .shy => .storeMasked c.y
  | .asl | .lsr | .rol | .ror | .inc | .dec | .slo | .rla | .sre | .rra | .dcp | .isc =>
    if i.mode = .accumulator then .nothing else .replace
  | .pha | .php => .push
  | .pla | .plp => .pull
  | .jsr => .call
  | .rts => .returnFromCall
  | .rti => .returnFromInterrupt
  | .brk => .interrupt
  | .jmp | .bcc | .bcs | .bne | .beq | .bpl | .bmi | .bvc | .bvs => .nothing
  | .clc | .sec | .cli | .sei | .clv | .cld | .sed => .nothing
  | .tax | .tay | .txa | .tya | .tsx | .txs | .inx | .iny | .dex | .dey | .jam => .nothing

/-- Where a masked byte goes: if the index has changed the page, to the page that the byte names. -/
def Operand.maskedAddr (o : Operand) (v : UInt8) : UInt16 :=
  if o.crossesPage then wordOf (lowByte o.addr) (v &&& (highByte o.base + 1)) else o.addr

open Machine (stackAddr) in
/-- The accesses of a class, with the operand and the stack pointer before the instruction. -/
def Traffic.plan (sp : UInt8) (o : Operand) : Traffic → Plan
  | nothing => .done
  | load => .read o.addr fun _ => .done
  | store => .write o.addr .done
  | storeMasked v => .write (o.maskedAddr v) .done
  | replace => .read o.addr fun _ => .write o.addr .done
  | push => .write (stackAddr sp) .done
  | pull => .read (stackAddr (sp + 1)) fun _ => .done
  | call => .write (stackAddr sp) (.write (stackAddr (sp - 1)) .done)
  | returnFromCall => .read (stackAddr (sp + 1)) fun _ => .read (stackAddr (sp + 2)) fun _ => .done
  | returnFromInterrupt => .read (stackAddr (sp + 1)) fun _ =>
      .read (stackAddr (sp + 2)) fun _ => .read (stackAddr (sp + 3)) fun _ => .done
  | interrupt => .write (stackAddr sp) (.write (stackAddr (sp - 1)) (.write (stackAddr (sp - 2))
      (.read 0xFFFE fun _ => .read 0xFFFF fun _ => .done)))

/-- The plan of an instruction whose opcode has been read. -/
def Instruction.plan (c : Cpu) (i : Instruction) : Plan :=
  i.mode.plan c fun o => (i.traffic c).plan c.sp o

/-- The plan of the next instruction. -/
def plan (c : Cpu) : Plan := .read c.pc fun opcode => (Instruction.ofOpcode opcode).plan c

/-! ### What an instruction does to the bus -/

/-- The class of traffic that an action makes. -/
def Action.traffic (c : Cpu) (mode : Mode) : Action → Traffic
  | read _ => .load
  | write _ => .store
  | writeMasked f => .storeMasked (f c).1
  | modify _ => if mode = .accumulator then .nothing else .replace
  | skip => if mode = .implied then .nothing else .load
  | internal _ | branch _ | jump | jam => .nothing
  | call => .call
  | returnFromCall => .returnFromCall
  | returnFromInterrupt => .returnFromInterrupt
  | interrupt => .interrupt
  | push _ => .push
  | pull _ => .pull

theorem Instruction.traffic_action (c : Cpu) (pc : UInt16) (i : Instruction) :
    i.mnemonic.action.traffic { c with pc } i.mode = i.traffic c := by
  obtain ⟨mnemonic, mode, cycles⟩ := i
  cases mnemonic <;> rfl

theorem and_0xFF00 (n : Nat) : n &&& 0xFF00 = n / 256 % 256 * 256 := by
  have hhigh : (n &&& 0xFF00) / 2 ^ 8 = n / 256 % 256 := by
    rw [Nat.and_div_two_pow]
    exact Nat.and_two_pow_sub_one_eq_mod _ 8
  have hlow : (n &&& 0xFF00) % 2 ^ 8 = 0 := by
    rw [Nat.and_mod_two_pow]
    exact Nat.and_zero _
  omega

theorem Operand.nextOnPage_wordOf (low high : UInt8) :
    Operand.nextOnPage (wordOf low high) = wordOf (low + 1) high := by
  have hpage : (wordOf low high &&& 0xFF00).toNat = high.toNat <<< 8 := by
    have := low.toNat_lt
    have := high.toNat_lt
    rw [UInt16.toNat_and, toNat_wordOf, Nat.shiftLeft_eq]
    change (high.toNat * 256 + low.toNat) &&& 0xFF00 = _
    rw [and_0xFF00]
    omega
  have hnext : ((wordOf low high + 1) &&& 0x00FF).toNat = (low + 1).toNat := by
    rw [UInt16.toNat_and, UInt16.toNat_add, toNat_wordOf, UInt8.toNat_add]
    change ((high.toNat * 256 + low.toNat + 1) % 2 ^ 16) &&& (2 ^ 8 - 1) = (low.toNat + 1) % 2 ^ 8
    rw [Nat.and_two_pow_sub_one_eq_mod]
    omega
  apply UInt16.toNat_inj.1
  rw [Operand.nextOnPage, UInt16.toNat_or, hpage, hnext, toNat_wordOf,
    ← Nat.shiftLeft_add_eq_or_of_lt (low + 1).toNat_lt, Nat.shiftLeft_eq]

end Cpu

variable {β : Type} [Bus β]

theorem Plan.Recorded.operand {next : Operand → Plan} {mode : Mode} {c : Cpu} {r r' : Recorder β}
    (h : (next (Operand.resolve mode c (c.pc + 1) r).1).Recorded
      (Operand.resolve mode c (c.pc + 1) r).2 r') : (mode.plan c next).Recorded r r' := by
  have hpc : c.pc + 1 + 1 = c.pc + 2 := UInt16.add_assoc _ _ _
  cases mode with
  | implied | accumulator | immediate => exact h
  | zeroPage | zeroPageX | zeroPageY => exact .read h
  | relative =>
    simp only [Operand.resolve, hpc] at h
    exact .read h
  | absolute | absoluteX | absoluteY =>
    simp only [Operand.resolve, Bus.readWord, Bus.readPair, hpc] at h
    exact .read (.read h)
  | indirect =>
    simp only [Operand.resolve, Bus.readWord, Bus.readPair, hpc, Operand.nextOnPage_wordOf] at h
    exact .read (.read (.read (.read h)))
  | indirectX | indirectY =>
    simp only [Operand.resolve, Bus.readPair] at h
    exact .read (.read (.read h))

namespace Machine

open Plan (Recorded)

variable {c : Cpu} {opcode : UInt8}

/-- An operation makes the traffic of its class. -/
theorem recorded_perform (m : Machine (Recorder β)) (action : Action) (mode : Mode) (o : Operand) :
    ((action.traffic m.cpu mode).plan m.cpu.sp o).Recorded m.bus
      (m.perform action mode o).2.bus := by
  obtain ⟨cpu, r⟩ := m
  have htwo : cpu.sp + 1 + 1 = cpu.sp + 2 := UInt8.add_assoc _ _ _
  have hthree : cpu.sp + 1 + 1 + 1 = cpu.sp + 3 := by grind
  have hbelow : cpu.sp - 1 - 1 = cpu.sp - 2 := by grind
  cases action with
  | read f => exact .read (.done _)
  | write value => exact .write _ (.done _)
  | writeMasked f => exact .write _ (.done _)
  | modify f =>
    by_cases hmode : mode = .accumulator
    · simp only [Action.traffic, perform, hmode, ↓reduceIte, BEq.rfl]
      exact .done _
    · simp only [Action.traffic, perform, hmode, ↓reduceIte, beq_iff_eq]
      exact .read (.write _ (.done _))
  | internal f => exact .done _
  | branch taken =>
    simp only [perform]
    split <;> exact .done _
  | jump => exact .done _
  | call => exact .write _ (.write _ (.done _))
  | returnFromCall =>
    simp only [Action.traffic, Traffic.plan, ← htwo]
    exact .read (.read (.done _))
  | returnFromInterrupt =>
    simp only [Action.traffic, Traffic.plan, ← hthree, ← htwo]
    exact .read (.read (.read (.done _)))
  | interrupt =>
    simp only [Action.traffic, Traffic.plan, ← hbelow]
    exact .write _ (.write _ (.write _ (.read (.read (.done _)))))
  | push value => exact .write _ (.done _)
  | pull f => exact .read (.done _)
  | skip =>
    by_cases hmode : mode = .implied
    · simp only [Action.traffic, perform, hmode, ↓reduceIte, BEq.rfl]
      exact .done _
    · simp only [Action.traffic, perform, hmode, ↓reduceIte, beq_iff_eq]
      exact .read (.done _)
  | jam => exact .done _

theorem recorded_execute (m : Machine (Recorder β)) (opcode : UInt8) :
    ((Instruction.ofOpcode opcode).plan m.cpu).Recorded m.bus (m.execute opcode).2.bus := by
  by_cases hjam : (Instruction.ofOpcode opcode).mnemonic = .jam
  · have hmode : (Instruction.ofOpcode opcode).mode = .implied :=
      Instruction.mode_table _ (Array.getElem_mem _) hjam
    rw [execute_jam m hjam, Instruction.plan, Instruction.traffic, hmode, hjam]
    exact .done _
  · obtain ⟨cpu, r⟩ := m
    simp only [execute]
    split
    · next haction => exact absurd (Mnemonic.eq_jam_of_action haction) hjam
    · refine .operand ?_
      have hperform := recorded_perform
        (jump ⟨cpu, (Operand.resolve (Instruction.ofOpcode opcode).mode cpu (cpu.pc + 1) r).2⟩
          (cpu.pc + UInt16.ofNat (Instruction.ofOpcode opcode).length))
        (Instruction.ofOpcode opcode).mnemonic.action (Instruction.ofOpcode opcode).mode
        (Operand.resolve (Instruction.ofOpcode opcode).mode cpu (cpu.pc + 1) r).1
      rw [← Instruction.traffic_action cpu
        (cpu.pc + UInt16.ofNat (Instruction.ofOpcode opcode).length)]
      exact hperform

theorem step_eq_execute (m : Machine β) (hgoes : m.cpu.halted = false) :
    m.step = (⟨m.cpu, (Bus.read m.bus m.cpu.pc).2⟩ : Machine β).execute
      (Bus.read m.bus m.cpu.pc).1 := by
  rw [step]
  exact if_neg (Bool.eq_false_iff.1 hgoes)

theorem stepAccesses_eq_execute (m : Machine β) (hgoes : m.cpu.halted = false) :
    m.stepAccesses = ((⟨m.cpu, (Bus.read m.recording.bus m.cpu.pc).2⟩ :
      Machine (Recorder β)).execute (Bus.read m.bus m.cpu.pc).1).2.bus.accesses.toList := by
  rw [stepAccesses, step_eq_execute m.recording hgoes]
  rfl

/-- A running processor carries out the plan of its next instruction. -/
theorem carried_step (m : Machine β) (hgoes : m.cpu.halted = false) :
    m.cpu.plan.Carried m.bus m.stepAccesses m.step.2.bus := by
  have hrecorded : m.cpu.plan.Recorded m.recording.bus m.recording.step.2.bus := by
    rw [step_eq_execute m.recording hgoes]
    exact .read (recorded_execute _ _)
  obtain ⟨accesses, hlist, hcarried⟩ := hrecorded
  have haccesses : m.stepAccesses = accesses := hlist
  rw [haccesses, m.step_recording]
  exact hcarried

end Machine

/-! ### What is written -/

/-- What an access writes, and where. -/
def Access.write? : Access → Option (UInt16 × UInt8)
  | .read _ _ => none
  | .write addr v => some (addr, v)

/-- The bytes that are written, with their addresses. -/
def Access.writes (accesses : List Access) : List (UInt16 × UInt8) :=
  accesses.filterMap Access.write?

/-- The addresses that are written to. -/
def Access.written (accesses : List Access) : List UInt16 := (writes accesses).map Prod.fst

namespace Plan

variable {p : Plan} {bus after : β} {accesses : List Access}

theorem Carried.length_written (h : p.Carried bus accesses after) {n : Nat}
    (hp : p.WritesAtMost n) : (Access.written accesses).length ≤ n := by
  induction h generalizing n with
  | done => exact Nat.zero_le _
  | read _ ih => exact ih (hp _)
  | write v _ ih =>
    cases n with
    | zero => exact hp.elim
    | succ n => exact Nat.succ_le_succ (ih hp)

/-- Memory keeps what no access writes to. -/
theorem Carried.get {memory memory' : Memory} (h : p.Carried memory accesses memory')
    {addr : UInt16} (haddr : addr ∉ Access.written accesses) :
    memory'.get addr = memory.get addr := by
  induction h with
  | done => rfl
  | read _ ih => exact ih haddr
  | @write written _ bus _ _ v _ ih =>
    change addr ∉ written :: Access.written _ at haddr
    rw [List.mem_cons, not_or] at haddr
    rw [ih haddr.2]
    exact Memory.get_set_of_ne bus v (Ne.symm haddr.1)

end Plan

theorem Cpu.Traffic.writesAtMost_plan (t : Traffic) (sp : UInt8) (o : Operand) :
    (t.plan sp o).WritesAtMost 3 := by
  cases t <;> simp [Traffic.plan, Plan.WritesAtMost]

theorem Cpu.Mode.writesAtMost_plan (mode : Mode) (c : Cpu) {next : Operand → Plan} {n : Nat}
    (h : ∀ o, (next o).WritesAtMost n) : (mode.plan c next).WritesAtMost n := by
  cases mode <;> simp [Mode.plan, Plan.WritesAtMost, h]

theorem Cpu.writesAtMost_plan (c : Cpu) : c.plan.WritesAtMost 3 := fun opcode =>
  (Instruction.ofOpcode opcode).mode.writesAtMost_plan c fun o =>
    ((Instruction.ofOpcode opcode).traffic c).writesAtMost_plan c.sp o

namespace Machine

/-- **An instruction makes the traffic of its class.**  On every bus, whatever it answers, the
accesses of a running processor's next instruction are the planned ones, in order: they read what
the bus answers, and lead to the bus after the instruction.  On flat memory at most three bytes are
written to, and all others stay as they are. -/
theorem step_traffic :
    (∀ (β : Type) [Bus β] (m : Machine β), m.cpu.halted = false →
      m.cpu.plan.Carried m.bus m.stepAccesses m.step.2.bus) ∧
    (∀ m : Machine Memory, m.cpu.halted = false →
      (Access.written m.stepAccesses).length ≤ 3 ∧
      ∀ addr ∉ Access.written m.stepAccesses, m.step.2.bus.get addr = m.bus.get addr) := by
  refine ⟨fun β _ m hgoes => m.carried_step hgoes, fun m hgoes => ?_⟩
  have hcarried := m.carried_step hgoes
  exact ⟨hcarried.length_written m.cpu.writesAtMost_plan, fun addr haddr => hcarried.get haddr⟩

/-- A `JSR`: three reads, and two writes to the stack. -/
theorem step_traffic_jsr :
    let m : Machine Memory := ⟨{}, Memory.zero.set 0 0x20⟩
    m.cpu.plan.Carried m.bus m.stepAccesses m.step.2.bus ∧
      m.stepAccesses =
        [.read 0 0x20, .read 1 0, .read 2 0, .write 0x01FD 0, .write 0x01FC 2] ∧
      ∀ addr, addr ≠ 0x01FD → addr ≠ 0x01FC → m.step.2.bus.get addr = m.bus.get addr := by
  intro m
  have haccesses : m.stepAccesses =
      [.read 0 0x20, .read 1 0, .read 2 0, .write 0x01FD 0, .write 0x01FC 2] := by decide
  refine ⟨step_traffic.1 Memory m rfl, haccesses, fun addr hhigh hlow => ?_⟩
  apply (step_traffic.2 m rfl).2
  rw [haccesses]
  simpa [Access.written, Access.writes, Access.write?, eq_comm] using And.intro hhigh hlow

end Machine

end Nes
