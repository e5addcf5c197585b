import Nes.Bus.Recorder
import Nes.Cpu.Machine

/-!
# What the processor accesses

A map between buses that agrees with every access (`Bus.Hom`) lets the processor do the same on
either side (`Bus.Hom.step`, `Bus.Hom.interrupt`).  Forgetting a record is such a map, so that the
accesses which a `Recorder` finds are those of the processor on its own bus, and lead from the bus
before to the bus after (`Machine.foldl_stepAccesses`).

An instruction reads, writes to the stack, and then writes elsewhere at most once
(`Machine.step_accessed`): whatever reads and pushes keep (`Bus.Quiet.preserves`), it keeps up to
that write.
-/

namespace Nes

/-! ### Maps between buses -/

/-- A map between buses that agrees with every access. -/
structure Bus.Hom {β γ : Type} [Bus β] [Bus γ] (f : β → γ) : Prop where
  /-- Reads answer the same byte. -/
  read : ∀ bus addr, Bus.read (f bus) addr = ((Bus.read bus addr).1, f (Bus.read bus addr).2)
  /-- Writes have the same effect. -/
  write : ∀ bus addr v, Bus.write (f bus) addr v = f (Bus.write bus addr v)

/-- The processor on the image of its bus. -/
def Machine.map {β γ : Type} (f : β → γ) (m : Machine β) : Machine γ := ⟨m.cpu, f m.bus⟩

namespace Machine

variable {β γ : Type} (f : β → γ)

theorem map_mk (cpu : Cpu) (bus : β) : Machine.map f ⟨cpu, bus⟩ = ⟨cpu, f bus⟩ := rfl

theorem map_cpu (m : Machine β) : (m.map f).cpu = m.cpu := rfl

theorem map_bus (m : Machine β) : (m.map f).bus = f m.bus := rfl

theorem map_jump (m : Machine β) (addr : UInt16) : (m.map f).jump addr = (m.jump addr).map f := rfl

end Machine

namespace Bus.Hom

variable {β γ : Type} [Bus β] [Bus γ] {f : β → γ} (h : Bus.Hom f)

include h

theorem readPair (bus : β) (low high : UInt16) :
    Bus.readPair (f bus) low high =
      ((Bus.readPair bus low high).1, f (Bus.readPair bus low high).2) := by
  simp only [Bus.readPair, h.read]

theorem readWord (bus : β) (addr : UInt16) :
    Bus.readWord (f bus) addr = ((Bus.readWord bus addr).1, f (Bus.readWord bus addr).2) :=
  h.readPair bus addr (addr + 1)

theorem readList (bus : β) (addr : UInt16) (n : Nat) :
    Bus.readList (f bus) addr n =
      ((Bus.readList bus addr n).1, f (Bus.readList bus addr n).2) := by
  unfold Bus.readList
  induction n generalizing bus addr with
  | zero => rfl
  | succ n ih => simp only [Bus.listBy, h.read, ih]

theorem resolve (mode : Cpu.Mode) (c : Cpu) (pc : UInt16) (bus : β) :
    Cpu.Operand.resolve mode c pc (f bus) =
      ((Cpu.Operand.resolve mode c pc bus).1, f (Cpu.Operand.resolve mode c pc bus).2) := by
  cases mode <;> simp only [Cpu.Operand.resolve, h.read, h.readWord, h.readPair]

theorem push (m : Machine β) (v : UInt8) : (m.map f).push v = (m.push v).map f := by
  simp only [Machine.push, Machine.map, h.write]

theorem pushWord (m : Machine β) (w : UInt16) : (m.map f).pushWord w = (m.pushWord w).map f := by
  simp only [Machine.pushWord, h.push]

theorem pull (m : Machine β) : (m.map f).pull = (m.pull.1, m.pull.2.map f) := by
  simp only [Machine.pull, Machine.map, h.read]

theorem pullWord (m : Machine β) : (m.map f).pullWord = (m.pullWord.1, m.pullWord.2.map f) := by
  simp only [Machine.pullWord, h.pull]

theorem enter (m : Machine β) (kind : Cpu.Interrupt) :
    (m.map f).enter kind = (m.enter kind).map f := by
  simp only [Machine.enter, Machine.map_cpu, h.pushWord, h.push, Machine.map_bus, h.readWord,
    Machine.map_mk]

theorem interrupt (m : Machine β) (kind : Cpu.Interrupt) :
    (m.map f).interrupt kind = ((m.interrupt kind).1, (m.interrupt kind).2.map f) := by
  simp only [Machine.interrupt, Machine.map_cpu, h.enter]
  split <;> rfl

theorem reset (m : Machine β) : (m.map f).reset = m.reset.map f := by
  simp only [Machine.reset, Machine.map_bus, h.readWord, Machine.map_mk]

theorem perform (m : Machine β) (action : Cpu.Action) (mode : Cpu.Mode) (o : Cpu.Operand) :
    (m.map f).perform action mode o =
      ((m.perform action mode o).1, (m.perform action mode o).2.map f) := by
  obtain ⟨cpu, bus⟩ := m
  have hmap : ∀ (c : Cpu) (b : β), (⟨c, f b⟩ : Machine γ) = Machine.map f ⟨c, b⟩ := fun _ _ => rfl
  cases action with
  | read g => simp only [Machine.perform, Machine.map_mk, h.read]
  | write value => simp only [Machine.perform, Machine.map_mk, h.write]
  | writeMasked g => simp only [Machine.perform, Machine.map_mk, h.write]
  | modify g =>
    simp only [Machine.perform, Machine.map_mk, h.read, h.write]
    split <;> rfl
  | internal g => rfl
  | branch taken =>
    by_cases ht : taken cpu.status = true
    · simp only [Machine.perform, Machine.map_mk, ht, ↓reduceIte]
      rfl
    · simp only [Machine.perform, Machine.map_mk, ht, ↓reduceIte, Bool.false_eq_true]
  | jump => rfl
  | call =>
    simp only [Machine.perform, Machine.map_mk]
    rw [hmap, h.pushWord]
    rfl
  | returnFromCall =>
    simp only [Machine.perform, Machine.map_mk]
    rw [hmap, h.pullWord]
    rfl
  | returnFromInterrupt =>
    simp only [Machine.perform, Machine.map_mk]
    rw [hmap, h.pull]
    simp only [Machine.map_cpu, Machine.map_bus]
    rw [hmap, h.pullWord]
    rfl
  | interrupt =>
    simp only [Machine.perform, Machine.map_mk]
    rw [hmap, ← h.enter]
    rfl
  | push value =>
    simp only [Machine.perform, Machine.map_mk]
    rw [hmap, h.push]
  | pull g =>
    simp only [Machine.perform, Machine.map_mk]
    rw [hmap, h.pull]
    rfl
  | skip =>
    simp only [Machine.perform, Machine.map_mk, h.read]
    split <;> rfl
  | jam => rfl

theorem execute (m : Machine β) (opcode : UInt8) :
    (m.map f).execute opcode = ((m.execute opcode).1, (m.execute opcode).2.map f) := by
  obtain ⟨cpu, bus⟩ := m
  simp only [Machine.execute, Machine.map_mk, h.resolve]
  split
  · rfl
  · have hmap : ∀ (c : Cpu) (b : β), (⟨c, f b⟩ : Machine γ) = Machine.map f ⟨c, b⟩ :=
      fun _ _ => rfl
    rw [hmap, Machine.map_jump, h.perform]
    rfl

theorem step (m : Machine β) : (m.map f).step = (m.step.1, m.step.2.map f) := by
  obtain ⟨cpu, bus⟩ := m
  by_cases hh : cpu.halted = true
  · simp only [Machine.step, Machine.fetch, Machine.map_mk, h.read, hh, ↓reduceIte]
  · simp only [Machine.step, Machine.fetch, Machine.map_mk, h.read, hh, ↓reduceIte,
      Bool.false_eq_true]
    exact h.execute ⟨cpu, (Bus.read bus cpu.pc).2⟩ _

theorem stepTraced (m : Machine β) :
    (m.map f).stepTraced = (m.stepTraced.1, m.stepTraced.2.map f) := by
  obtain ⟨cpu, bus⟩ := m
  by_cases hh : cpu.halted = true
  · simp only [Machine.stepTraced, Machine.fetch, Machine.map_mk, h.read, hh, ↓reduceIte]
  · have hmap : ∀ (c : Cpu) (b : β), (⟨c, f b⟩ : Machine γ) = Machine.map f ⟨c, b⟩ :=
      fun _ _ => rfl
    simp only [Machine.stepTraced, Machine.fetch, Machine.map_mk, h.read, h.readList, hh,
      ↓reduceIte, Bool.false_eq_true]
    rw [hmap, h.execute]

end Bus.Hom

/-! ### What an instruction accesses -/

/-- The second bus comes from the first one by reads and by writes to the stack. -/
inductive Bus.Quiet {β : Type} [Bus β] (bus : β) : β → Prop
  /-- Nothing is accessed. -/
  | refl : Quiet bus bus
  /-- A byte is read. -/
  | read {bus' : β} (h : Quiet bus bus') (addr : UInt16) : Quiet bus (Bus.read bus' addr).2
  /-- A byte is pushed. -/
  | push {bus' : β} (h : Quiet bus bus') (sp v : UInt8) :
    Quiet bus (Bus.write bus' (Machine.stackAddr sp) v)

/-- The second bus comes from the first one by reads, by writes to the stack, and at the end by one
write at most. -/
def Bus.Accessed {β : Type} [Bus β] (bus bus' : β) : Prop :=
  ∃ b, Bus.Quiet bus b ∧ (bus' = b ∨ ∃ addr v, bus' = Bus.write b addr v)

namespace Bus.Quiet

variable {β : Type} [Bus β] {bus b : β} {m : Machine β}

/-- What reads and pushes keep, they keep together. -/
theorem preserves {P : β → Prop} (hread : ∀ b addr, P b → P (Bus.read b addr).2)
    (hpush : ∀ b sp v, P b → P (Bus.write b (Machine.stackAddr sp) v)) (h : Bus.Quiet bus b)
    (hP : P bus) : P b := by
  induction h with
  | refl => exact hP
  | read _ addr ih => exact hread _ addr ih
  | push _ sp v ih => exact hpush _ sp v ih

theorem accessed (h : Bus.Quiet bus b) : Bus.Accessed bus b := ⟨b, h, Or.inl rfl⟩

theorem write (h : Bus.Quiet bus b) (addr : UInt16) (v : UInt8) :
    Bus.Accessed bus (Bus.write b addr v) :=
  ⟨b, h, Or.inr ⟨addr, v, rfl⟩⟩

theorem readPair (h : Bus.Quiet bus b) (low high : UInt16) :
    Bus.Quiet bus (Bus.readPair b low high).2 :=
  (h.read low).read high

theorem readWord (h : Bus.Quiet bus b) (addr : UInt16) : Bus.Quiet bus (Bus.readWord b addr).2 :=
  h.readPair addr (addr + 1)

theorem readList (h : Bus.Quiet bus b) (addr : UInt16) (n : Nat) :
    Bus.Quiet bus (Bus.readList b addr n).2 := by
  unfold Bus.readList
  induction n generalizing b addr with
  | zero => exact h
  | succ n ih => exact ih (h.read addr) (addr + 1)

theorem resolve (h : Bus.Quiet bus b) (mode : Cpu.Mode) (c : Cpu) (pc : UInt16) :
    Bus.Quiet bus (Cpu.Operand.resolve mode c pc b).2 := by
  cases mode with
  | implied | accumulator | immediate => exact h
  | zeroPage | zeroPageX | zeroPageY | relative => exact h.read pc
  | absolute | absoluteX | absoluteY => exact h.readWord pc
  | indirect => exact (h.readWord pc).readPair _ _
  | indirectX | indirectY => exact (h.read pc).readPair _ _

theorem pushByte (h : Bus.Quiet bus m.bus) (v : UInt8) : Bus.Quiet bus (m.push v).bus :=
  h.push m.cpu.sp v

theorem pushWord (h : Bus.Quiet bus m.bus) (w : UInt16) : Bus.Quiet bus (m.pushWord w).bus :=
  (h.pushByte _).pushByte _

theorem pull (h : Bus.Quiet bus m.bus) : Bus.Quiet bus m.pull.2.bus := h.read _

theorem pullWord (h : Bus.Quiet bus m.bus) : Bus.Quiet bus m.pullWord.2.bus := h.pull.pull

theorem enter (h : Bus.Quiet bus m.bus) (kind : Cpu.Interrupt) :
    Bus.Quiet bus (m.enter kind).bus :=
  ((h.pushWord m.cpu.pc).pushByte _).readWord kind.vector

theorem interrupt (h : Bus.Quiet bus m.bus) (kind : Cpu.Interrupt) :
    Bus.Quiet bus (m.interrupt kind).2.bus := by
  unfold Machine.interrupt
  split
  · exact h
  · exact h.enter kind

theorem reset (h : Bus.Quiet bus m.bus) : Bus.Quiet bus m.reset.bus := h.readWord _

/-- Of all classes of operations, each writes at most once, and then nothing more. -/
theorem perform (h : Bus.Quiet bus m.bus) (action : Cpu.Action) (mode : Cpu.Mode)
    (o : Cpu.Operand) : Bus.Accessed bus (m.perform action mode o).2.bus := by
  obtain ⟨cpu, b⟩ := m
  cases action with
  | read g => exact (h.read _).accessed
  | write value => exact h.write _ _
  | writeMasked g => exact h.write _ _
  | modify g =>
    simp only [Machine.perform]
    split
    · exact h.accessed
    · exact (h.read _).write _ _
  | internal g => exact h.accessed
  | branch taken =>
    simp only [Machine.perform]
    split
    · exact h.accessed
    · exact h.accessed
  | jump => exact h.accessed
  | call => exact (h.pushWord _).accessed
  | returnFromCall => exact h.pullWord.accessed
  | returnFromInterrupt => exact (((h.read _).read _).read _).accessed
  | interrupt => exact (enter (m := Machine.jump ⟨cpu, b⟩ (cpu.pc + 1)) h .brk).accessed
  | push value => exact (h.pushByte _).accessed
  | pull g => exact h.pull.accessed
  | skip =>
    simp only [Machine.perform]
    split
    · exact h.accessed
    · exact (h.read _).accessed
  | jam => exact h.accessed

theorem execute (h : Bus.Quiet bus m.bus) (opcode : UInt8) :
    Bus.Accessed bus (m.execute opcode).2.bus := by
  obtain ⟨cpu, b⟩ := m
  simp only [Machine.execute]
  split
  · exact h.accessed
  · exact (h.resolve _ _ _).perform (m := Machine.jump ⟨cpu, _⟩ _) _ _ _

end Bus.Quiet

namespace Machine

variable {β : Type} [Bus β] (m : Machine β)

/-- **An instruction reads and pushes, and then writes at most once.** -/
theorem step_accessed : Bus.Accessed m.bus m.step.2.bus := by
  have hfetch : Bus.Quiet m.bus m.fetch.2.bus := Bus.Quiet.refl.read _
  simp only [step]
  split
  · exact hfetch.accessed
  · exact hfetch.execute _

theorem execute_quiet {bus : β} (h : Bus.Quiet bus m.bus) {opcode : UInt8} {j : Cpu.Jam}
    (hj : (m.execute opcode).1 = .error j) : Bus.Quiet bus (m.execute opcode).2.bus := by
  obtain ⟨cpu, b⟩ := m
  simp only [execute] at hj ⊢
  split at hj
  · exact h
  · exact absurd hj (by simp)

/-- A processor that stops has only read. -/
theorem step_quiet {j : Cpu.Jam} (hj : m.step.1 = .error j) : Bus.Quiet m.bus m.step.2.bus := by
  have hfetch : Bus.Quiet m.bus m.fetch.2.bus := Bus.Quiet.refl.read _
  simp only [step] at hj ⊢
  split
  · exact hfetch
  · next hhalted =>
    rw [if_neg hhalted] at hj
    exact m.fetch.2.execute_quiet hfetch hj

theorem stepTraced_accessed : Bus.Accessed m.bus m.stepTraced.2.bus := by
  have hfetch : Bus.Quiet m.bus m.fetch.2.bus := Bus.Quiet.refl.read _
  simp only [stepTraced]
  split
  · exact hfetch.accessed
  · exact (hfetch.readList _ _).execute (m := ⟨_, _⟩) _

theorem stepTraced_quiet {j : Cpu.Jam} (hj : m.stepTraced.1.1 = .error j) :
    Bus.Quiet m.bus m.stepTraced.2.bus := by
  have hfetch : Bus.Quiet m.bus m.fetch.2.bus := Bus.Quiet.refl.read _
  simp only [stepTraced] at hj ⊢
  split
  · exact hfetch
  · next hhalted =>
    rw [if_neg hhalted] at hj
    exact execute_quiet ⟨m.fetch.2.cpu, _⟩ (hfetch.readList _ _) hj

end Machine

/-! ### Recorded accesses -/

namespace Access

/-- The bus after an access. -/
def act {β : Type} [Bus β] (bus : β) : Access → β
  | .read addr _ => (Bus.read bus addr).2
  | .write addr v => Bus.write bus addr v

/-- The access reads, or writes to the stack. -/
def IsQuiet : Access → Prop
  | .read _ _ => True
  | .write addr _ => ∃ sp, addr = Machine.stackAddr sp

end Access

namespace Recorder

variable {β : Type} [Bus β] {bus : β} {r : Recorder β}

/-- A record does not disturb what is recorded. -/
theorem hom_bus : Bus.Hom (Recorder.bus : Recorder β → β) where
  read := fun _ _ => rfl
  write := fun _ _ _ => rfl

theorem toList_read (r : Recorder β) (addr : UInt16) :
    (Bus.read r addr).2.accesses.toList =
      r.accesses.toList ++ [.read addr (Bus.read r.bus addr).1] := Array.toList_push

theorem toList_write (r : Recorder β) (addr : UInt16) (v : UInt8) :
    (Bus.write r addr v).accesses.toList = r.accesses.toList ++ [.write addr v] :=
  Array.toList_push

/-- The accesses recorded make up the way from one bus to the other. -/
def Replays (bus : β) (r : Recorder β) : Prop := r.accesses.toList.foldl Access.act bus = r.bus

theorem Replays.read (h : Replays bus r) (addr : UInt16) : Replays bus (Bus.read r addr).2 := by
  rw [Replays, toList_read, List.foldl_append, h]
  rfl

theorem Replays.write (h : Replays bus r) (addr : UInt16) (v : UInt8) :
    Replays bus (Bus.write r addr v) := by
  rw [Replays, toList_write, List.foldl_append, h]
  rfl

theorem replays_of_accessed (h : Bus.Accessed (⟨bus, #[]⟩ : Recorder β) r) : Replays bus r := by
  obtain ⟨b, hquiet, hb⟩ := h
  have hreplays : Replays bus b :=
    hquiet.preserves (fun _ addr h => h.read addr) (fun _ _ v h => h.write _ v) rfl
  rcases hb with rfl | ⟨addr, v, rfl⟩
  · exact hreplays
  · exact hreplays.write addr v

theorem isQuiet_of_quiet (h : Bus.Quiet (⟨bus, #[]⟩ : Recorder β) r) :
    ∀ a ∈ r.accesses.toList, a.IsQuiet := by
  refine h.preserves (P := fun r => ∀ a ∈ r.accesses.toList, a.IsQuiet) ?_ ?_ ?_
  · intro r addr hr a ha
    rw [toList_read, List.mem_append, List.mem_singleton] at ha
    rcases ha with ha | rfl
    · exact hr a ha
    · trivial
  · intro r sp v hr a ha
    rw [toList_write, List.mem_append, List.mem_singleton] at ha
    rcases ha with ha | rfl
    · exact hr a ha
    · exact ⟨sp, rfl⟩
  · intro a ha
    exact absurd ha List.not_mem_nil

/-- The record of an instruction or an interrupt: reads and pushes, and at most one write at the
end. -/
theorem accesses_of_accessed (h : Bus.Accessed (⟨bus, #[]⟩ : Recorder β) r) :
    ∃ quiet : List Access, (∀ a ∈ quiet, a.IsQuiet) ∧
      (r.accesses.toList = quiet ∨ ∃ addr v, r.accesses.toList = quiet ++ [.write addr v]) := by
  obtain ⟨b, hquiet, hb⟩ := h
  refine ⟨b.accesses.toList, isQuiet_of_quiet hquiet, ?_⟩
  rcases hb with rfl | ⟨addr, v, rfl⟩
  · exact Or.inl rfl
  · exact Or.inr ⟨addr, v, toList_write b addr v⟩

end Recorder

namespace Machine

/-- The processor on a bus that is recorded. -/
def recording {β : Type} (m : Machine β) : Machine (Recorder β) := ⟨m.cpu, ⟨m.bus, #[]⟩⟩

theorem map_recording {β : Type} (m : Machine β) : m.recording.map Recorder.bus = m := rfl

variable {β : Type} [Bus β] (m : Machine β)

/-- The accesses of an instruction. -/
def stepAccesses : List Access := m.recording.step.2.bus.accesses.toList

/-- The accesses of an instruction that is traced. -/
def stepTracedAccesses : List Access := m.recording.stepTraced.2.bus.accesses.toList

/-- The accesses of an interrupt. -/
def interruptAccesses (kind : Cpu.Interrupt) : List Access :=
  (m.recording.interrupt kind).2.bus.accesses.toList

/-- The accesses of a reset. -/
def resetAccesses : List Access := m.recording.reset.bus.accesses.toList

/-- An instruction does the same whether it is recorded or not. -/
theorem step_recording :
    m.step = (m.recording.step.1, m.recording.step.2.map Recorder.bus) :=
  Recorder.hom_bus.step m.recording

theorem foldl_stepAccesses : m.stepAccesses.foldl Access.act m.bus = m.step.2.bus := by
  rw [m.step_recording]
  exact Recorder.replays_of_accessed m.recording.step_accessed

theorem foldl_stepTracedAccesses :
    m.stepTracedAccesses.foldl Access.act m.bus = m.stepTraced.2.bus := by
  have hmap := Recorder.hom_bus.stepTraced m.recording
  rw [map_recording] at hmap
  rw [hmap]
  exact Recorder.replays_of_accessed m.recording.stepTraced_accessed

theorem foldl_interruptAccesses (kind : Cpu.Interrupt) :
    (m.interruptAccesses kind).foldl Access.act m.bus = (m.interrupt kind).2.bus := by
  have hmap := Recorder.hom_bus.interrupt m.recording kind
  rw [map_recording] at hmap
  rw [hmap]
  exact Recorder.replays_of_accessed (Bus.Quiet.refl.interrupt (m := m.recording) kind).accessed

theorem foldl_resetAccesses : m.resetAccesses.foldl Access.act m.bus = m.reset.bus := by
  have hmap := Recorder.hom_bus.reset m.recording
  rw [map_recording] at hmap
  rw [hmap]
  exact Recorder.replays_of_accessed (Bus.Quiet.refl.reset (m := m.recording)).accessed

end Machine

end Nes
