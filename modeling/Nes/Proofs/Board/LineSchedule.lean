import Nes.Proofs.Board.VrcRegisters
import Nes.Proofs.Ppu.LineClock
import Mathlib.Data.List.DropRight
import Mathlib.Tactic.IntervalCases

/-!
# The schedule of an MMC3

The line counter of an MMC3 that has been set up counts `latch + 1` lines again and again.  The
lines so far and the lines left make a multiple of that period (`LineCounter.Scheduled`), so that a
line on which the counter reaches zero is one whose number is a multiple.  An acknowledgement, which
withdraws a request and permits new ones before the next line, moves nothing but the line up to
which requests are withdrawn (`Scheduled.disable`, `Scheduled.enable`): the counter refires on
schedule whatever the moments of the acknowledgements (`LineCounter.scheduled_run`).

Whatever happens to the board, a request stands only if a line has brought the counter to zero while
requests were permitted, and nothing has withdrawn it since (`LineCounter.pending_run_iff`).
`line_schedule` puts the two together.
-/

namespace Nes.Board

/-! ### The registers of the counter -/

namespace Op

/-- A write to the register that withdraws a request and forbids new ones. -/
def disables : Op → Bool
  | prgWrite addr _ => 0xE000 ≤ addr.toNat && addr.toNat % 2 == 0
  | chrWrite .. | clockLine | clockCycle | reset => false

/-- A write to the register that permits requests. -/
def enables : Op → Bool
  | prgWrite addr _ => 0xE000 ≤ addr.toNat && addr.toNat % 2 == 1
  | chrWrite .. | clockLine | clockCycle | reset => false

/-- The operation sets the counter anew: a write to the latch or to the register that asks for a
reload, or a reset. -/
def setsLines : Op → Bool
  | prgWrite addr _ => 0xC000 ≤ addr.toNat && addr.toNat < 0xE000
  | reset => true
  | chrWrite .. | clockLine | clockCycle => false

/-- The operation leaves no request standing. -/
def withdraws (o : Op) : Bool := o.disables || o == reset

end Op

/-- The lines in a history. -/
def lines (ops : List Op) : Nat := ops.count .clockLine

/-- The lines in a history up to the last withdrawal of a request, zero if there is none. -/
def withdrawn (ops : List Op) : Nat := lines (ops.rdropWhile fun o => !o.disables)

/-- Requests are permitted after a history: no withdrawal stands without a permission after it. -/
def permitted (ops : List Op) : Bool :=
  ops.foldl (fun p o => if o.disables then false else p || o.enables) true

/-- No line is drawn between a withdrawal and the permission of new requests. -/
def Attended (ops : List Op) : Prop :=
  ∀ before ∈ ops.inits, before ++ [.clockLine] <+: ops → permitted before = true

instance (ops : List Op) : Decidable (Attended ops) :=
  inferInstanceAs (Decidable (∀ before ∈ ops.inits, _))

section

variable (ops : List Op) (o : Op)

theorem lines_concat : lines (ops ++ [o]) = lines ops + if o = .clockLine then 1 else 0 := by
  simp [lines, List.count_singleton]

theorem withdrawn_concat :
    withdrawn (ops ++ [o]) = if o.disables then lines (ops ++ [o]) else withdrawn ops := by
  rw [withdrawn, List.rdropWhile_concat]
  cases o.disables <;> rfl

theorem permitted_concat :
    permitted (ops ++ [o]) = if o.disables then false else permitted ops || o.enables :=
  List.foldl_concat ..

variable {ops o}

/-- Requests are permitted when a line is drawn, now and before. -/
theorem Attended.of_concat (h : Attended (ops ++ [o])) :
    Attended ops ∧ (o = .clockLine → permitted ops = true) := by
  constructor
  · intro before _ hbefore
    have hlonger : before ++ [.clockLine] <+: ops ++ [o] := hbefore.trans (List.prefix_append ..)
    exact h before ((List.mem_inits ..).2 ((List.prefix_append ..).trans hlonger)) hlonger
  · rintro rfl
    exact h ops ((List.mem_inits ..).2 (List.prefix_append ..)) (List.prefix_refl _)

end

namespace LineCounter

/-- What an operation on a board with an MMC3 does to the counter. -/
def heed (c : LineCounter) : Op → LineCounter
  | .prgWrite addr v =>
    if addr.toNat < 0xC000 then c
    else if addr.toNat < 0xE000 then
      if addr.toNat % 2 = 0 then { c with latch := v } else c.requestReload
    else if addr.toNat % 2 = 0 then c.disable else c.enable
  | .clockLine => c.clock
  | .reset => c.reset
  | .chrWrite .. | .clockCycle => c

/-- The counter after a history. -/
def run (c : LineCounter) (ops : List Op) : LineCounter := ops.foldl heed c

theorem run_concat (c : LineCounter) (ops : List Op) (o : Op) :
    c.run (ops ++ [o]) = (c.run ops).heed o := List.foldl_concat ..

end LineCounter

/-- The pages of an MMC3 are of 8 KiB, and the last two belong to the counter. -/
theorem Mmc3.lines_write (s : Mmc3) {addr : UInt16} (haddr : 0x8000 ≤ addr.toNat) (v : UInt8) :
    (s.write addr v).lines = s.lines.heed (.prgWrite addr v) := by
  have hlt := addr.toNat_lt
  have hpage : (addr.toNat - 0x8000) / 0x2000 < 4 := by omega
  have hregisters : addr.toNat < 0xC000 ↔ (addr.toNat - 0x8000) / 0x2000 < 2 := by omega
  have hlatch : addr.toNat < 0xE000 ↔ (addr.toNat - 0x8000) / 0x2000 < 3 := by omega
  rw [write, page_eq haddr, even_iff, LineCounter.heed, if_congr hregisters rfl rfl,
    if_congr hlatch rfl rfl]
  generalize (addr.toNat - 0x8000) / 0x2000 = page at hpage
  by_cases heven : addr.toNat % 2 = 0 <;> interval_cases page
  all_goals simp [heven]
  split <;> rfl

theorem Mmc3.exists_heed (s : Mmc3) (o : Op) :
    ∃ s', o.onChip (.mmc3 s) = .mmc3 s' ∧ s'.lines = s.lines.heed o := by
  cases o with
  | prgWrite addr v =>
    by_cases haddr : addr ≥ 0x8000
    · exact ⟨s.write addr v, if_pos haddr, s.lines_write (high_iff.1 haddr) v⟩
    · have hlow := Nat.not_le.1 (high_iff.not.1 haddr)
      have hbelow : addr.toNat < 0xC000 := by omega
      exact ⟨s, if_neg haddr, (if_pos hbelow).symm⟩
  | chrWrite addr v => exact ⟨s, rfl, rfl⟩
  | clockLine => exact ⟨{ s with lines := s.lines.clock }, rfl, rfl⟩
  | clockCycle => exact ⟨s, rfl, rfl⟩
  | reset => exact ⟨s.reset, rfl, rfl⟩

/-- The counter of a board goes its own way. -/
theorem exists_lines_run {b : Board} {s : Mmc3} (hchip : b.chip = .mmc3 s) (ops : List Op) :
    ∃ s', (b.run ops).chip = .mmc3 s' ∧ s'.lines = s.lines.run ops := by
  induction ops using List.reverseRecOn with
  | nil => exact ⟨s, hchip, rfl⟩
  | append_singleton ops o ih =>
    obtain ⟨s', hs', hlines⟩ := ih
    obtain ⟨t, ht, hheed⟩ := s'.exists_heed o
    refine ⟨t, ?_, ?_⟩
    · rw [chip_run_concat, hs', ht]
    · rw [hheed, hlines, LineCounter.run_concat]

theorem irq_run {b : Board} {s : Mmc3} (hchip : b.chip = .mmc3 s) (ops : List Op) :
    (b.run ops).irq = (s.lines.run ops).pending := by
  obtain ⟨s', hs', hlines⟩ := exists_lines_run hchip ops
  rw [irq, hs', ← hlines]
  rfl

namespace LineCounter

variable {c : LineCounter}

/-! ### Where requests come from -/

/-- The lines left after one more: all of them again, or one less. -/
def next (c : LineCounter) : UInt8 :=
  if c.counter == 0 || c.reload then c.latch else c.counter - 1

/-- What a line does. -/
theorem clock_eq (c : LineCounter) :
    c.clock = { c with
      counter := c.next, reload := false
      pending := c.pending || (c.next == 0 && c.enabled) } := by
  obtain ⟨latch, counter, reload, enabled, pending⟩ := c
  rw [clock, next]
  dsimp only
  cases hover : counter == 0 || reload with
  | true =>
    cases hfires : latch == 0 && enabled <;> simp [hfires]
  | false =>
    obtain ⟨-, rfl⟩ := Bool.or_eq_false_iff.1 hover
    cases hfires : counter - 1 == 0 && enabled <;> simp [hfires]

theorem pending_clock_iff :
    c.clock.pending = true ↔ c.pending = true ∨ c.enabled = true ∧ c.clock.counter = 0 := by
  rw [clock_eq, Bool.or_eq_true, Bool.and_eq_true, beq_iff_eq, and_comm]

/-- A line brings a request, and only a withdrawal takes it away. -/
theorem pending_heed_iff (o : Op) :
    (c.heed o).pending = true ↔ o.withdraws = false ∧
      (c.pending = true ∨ o = .clockLine ∧ c.enabled = true ∧ c.clock.counter = 0) := by
  cases o with
  | prgWrite addr v =>
    simp only [heed, Op.withdraws, Op.disables]
    split_ifs <;> simp [requestReload, disable, enable] <;> omega
  | clockLine => simp [heed, Op.withdraws, Op.disables, pending_clock_iff]
  | reset => simp [heed, Op.withdraws, Op.disables, LineCounter.reset]
  | chrWrite addr v => simp [heed, Op.withdraws, Op.disables]
  | clockCycle => simp [heed, Op.withdraws, Op.disables]

/-- **A request stands only for a line that has brought the counter to zero** while requests were
permitted, and that nothing has withdrawn since. -/
theorem pending_run_iff (h : c.pending = false) (ops : List Op) :
    (c.run ops).pending = true ↔ ∃ before after, ops = before ++ .clockLine :: after ∧
      (c.run before).enabled = true ∧ (c.run before).clock.counter = 0 ∧
      ∀ o ∈ after, o.withdraws = false := by
  induction ops using List.reverseRecOn with
  | nil => simp [run, h]
  | append_singleton ops o ih =>
    rw [run_concat, pending_heed_iff, ih]
    constructor
    · rintro ⟨ho, ⟨before, after, rfl, henabled, hzero, hafter⟩ | ⟨rfl, henabled, hzero⟩⟩
      · refine ⟨before, after ++ [o], by simp, henabled, hzero, ?_⟩
        rw [List.forall_mem_append, List.forall_mem_singleton]
        exact ⟨hafter, ho⟩
      · exact ⟨ops, [], rfl, henabled, hzero, by simp⟩
    · rintro ⟨before, after, hops, henabled, hzero, hafter⟩
      -- Either the last operation is the line, or it has come after it.
      rcases List.eq_nil_or_concat' after with rfl | ⟨after, o', rfl⟩
      · obtain ⟨rfl, ho⟩ := List.append_inj' hops rfl
        obtain rfl := List.singleton_inj.1 ho
        exact ⟨rfl, Or.inr ⟨rfl, henabled, hzero⟩⟩
      · rw [← List.cons_append, ← List.append_assoc] at hops
        obtain ⟨rfl, ho⟩ := List.append_inj' hops rfl
        obtain rfl := List.singleton_inj.1 ho
        rw [List.forall_mem_append, List.forall_mem_singleton] at hafter
        exact ⟨hafter.2, Or.inl ⟨before, after, rfl, henabled, hzero, hafter.1⟩⟩

/-! ### The schedule -/

/-- The counter has been set up, and after some lines it stands as far from the next multiple of its
period as lines are left; requests up to one of these lines have been withdrawn. -/
structure Scheduled (c : LineCounter) (lines withdrawn : Nat) : Prop where
  /-- The counter starts over from its latch. -/
  counter_le : c.counter.toNat ≤ c.latch.toNat
  /-- With the lines left, the period is full. -/
  dvd : c.latch.toNat + 1 ∣ lines + c.counter.toNat
  /-- A reload is asked for only where the counter would start over anyway. -/
  reload : c.reload = true → c.counter = 0
  /-- The withdrawal lies in the past. -/
  withdrawn_le : withdrawn ≤ lines
  /-- The request. -/
  pending : c.pending = true ↔
    ∃ m, withdrawn < m * (c.latch.toNat + 1) ∧ m * (c.latch.toNat + 1) ≤ lines

theorem not_exists_multiple (p n : Nat) : ¬∃ m, n < m * p ∧ m * p ≤ n := by
  rintro ⟨m, hlt, hle⟩
  exact Nat.not_le.2 hlt hle

/-- A multiple has come with one more line if it had come before or the line is one. -/
theorem exists_multiple_succ {p n a : Nat} (h : a ≤ n) :
    (∃ m, a < m * p ∧ m * p ≤ n + 1) ↔ (∃ m, a < m * p ∧ m * p ≤ n) ∨ p ∣ n + 1 := by
  constructor
  · rintro ⟨m, hlt, hle⟩
    rcases Nat.le_succ_iff.1 hle with hle | heq
    · exact Or.inl ⟨m, hlt, hle⟩
    · exact Or.inr ⟨m, by rw [Nat.mul_comm, heq]⟩
  · rintro (⟨m, hlt, hle⟩ | ⟨m, heq⟩)
    · exact ⟨m, hlt, Nat.le_succ_of_le hle⟩
    · rw [Nat.mul_comm] at heq
      exact ⟨m, by omega, by omega⟩

namespace Scheduled

variable {n a : Nat}

/-- A line starts the counter over if it stands at zero. -/
theorem next_eq (h : c.Scheduled n a) :
    c.next = if c.counter = 0 then c.latch else c.counter - 1 := by
  have hover : (c.counter == 0 || c.reload) = true ↔ c.counter = 0 := by
    rw [Bool.or_eq_true, beq_iff_eq]
    exact or_iff_left_of_imp h.reload
  rw [next, if_congr hover rfl rfl]

/-- With the lines left after one more, the period is full again. -/
theorem next_dvd (h : c.Scheduled n a) :
    c.next.toNat ≤ c.latch.toNat ∧ c.latch.toNat + 1 ∣ n + 1 + c.next.toNat := by
  have hdvd := h.dvd
  rw [h.next_eq]
  split
  · next hzero =>
    rw [hzero] at hdvd
    refine ⟨Nat.le_refl _, ?_⟩
    rw [Nat.add_assoc, Nat.add_comm 1]
    exact (Nat.dvd_add_left (Nat.dvd_refl _)).2 hdvd
  · next hpos =>
    have hone : (1 : UInt8) ≤ c.counter := by
      rw [UInt8.le_iff_toNat_le]
      exact Nat.one_le_iff_ne_zero.2 fun hzero => hpos (UInt8.toNat_inj.1 hzero)
    have hleft : (c.counter - 1).toNat + 1 = c.counter.toNat := by
      rw [UInt8.toNat_sub_of_le _ _ hone]
      exact Nat.sub_add_cancel (UInt8.le_iff_toNat_le.1 hone)
    rw [← hleft, ← Nat.add_assoc, Nat.add_right_comm] at hdvd
    exact ⟨Nat.le_trans (Nat.le_of_lt (by omega)) h.counter_le, hdvd⟩

/-- The counter reaches zero on the multiples of its period. -/
theorem next_eq_zero_iff (h : c.Scheduled n a) : c.next = 0 ↔ c.latch.toNat + 1 ∣ n + 1 := by
  obtain ⟨hle, hdvd⟩ := h.next_dvd
  rw [← UInt8.toNat_inj]
  constructor
  · intro hzero
    rw [hzero] at hdvd
    exact hdvd
  · intro hmultiple
    exact Nat.eq_zero_of_dvd_of_lt ((Nat.dvd_add_right hmultiple).1 hdvd) (Nat.lt_succ_of_le hle)

/-- **A line brings the next multiple nearer,** and if it is one, a request. -/
theorem clock (h : c.Scheduled n a) (henabled : c.enabled = true) :
    c.clock.Scheduled (n + 1) a := by
  obtain ⟨hle, hdvd⟩ := h.next_dvd
  rw [clock_eq]
  refine ⟨hle, hdvd, fun hreload => Bool.noConfusion hreload, Nat.le_succ_of_le h.withdrawn_le, ?_⟩
  rw [exists_multiple_succ h.withdrawn_le, ← h.pending, ← h.next_eq_zero_iff, henabled,
    Bool.and_true, Bool.or_eq_true, beq_iff_eq]

/-- **A withdrawal shifts nothing.** -/
theorem disable (h : c.Scheduled n a) : c.disable.Scheduled n n where
  counter_le := h.counter_le
  dvd := h.dvd
  reload := h.reload
  withdrawn_le := Nat.le_refl n
  pending := iff_of_false Bool.false_ne_true (not_exists_multiple _ _)

/-- Nor does a permission. -/
theorem enable (h : c.Scheduled n a) : c.enable.Scheduled n a :=
  ⟨h.counter_le, h.dvd, h.reload, h.withdrawn_le, h.pending⟩

end Scheduled

theorem scheduled_armed (latch : UInt8) : (armed latch).Scheduled 0 0 where
  counter_le := Nat.zero_le _
  dvd := Nat.dvd_zero _
  reload := fun _ => rfl
  withdrawn_le := Nat.le_refl 0
  pending := iff_of_false Bool.false_ne_true (not_exists_multiple _ _)

/-- **A counter that has been set up keeps its schedule** as long as it is not set anew and no line
finds requests forbidden. -/
theorem scheduled_run (latch : UInt8) {ops : List Op} (hops : ∀ o ∈ ops, o.setsLines = false)
    (hattended : Attended ops) :
    ((armed latch).run ops).Scheduled (lines ops) (withdrawn ops) ∧
      ((armed latch).run ops).enabled = permitted ops ∧
      ((armed latch).run ops).latch = latch := by
  induction ops using List.reverseRecOn with
  | nil => exact ⟨scheduled_armed latch, rfl, rfl⟩
  | append_singleton ops o ih =>
    rw [List.forall_mem_append, List.forall_mem_singleton] at hops
    obtain ⟨hbefore, hline⟩ := hattended.of_concat
    obtain ⟨hscheduled, henabled, hlatch⟩ := ih hops.1 hbefore
    rw [run_concat, lines_concat, withdrawn_concat, permitted_concat, lines_concat]
    generalize (armed latch).run ops = c at hscheduled henabled hlatch
    cases o with
    | prgWrite addr v =>
      have hset := hops.2
      simp only [Op.setsLines, Bool.and_eq_false_iff, decide_eq_false_iff_not] at hset
      simp only [heed, Op.disables, Op.enables, reduceCtorEq, ↓reduceIte, Nat.add_zero]
      by_cases hlow : addr.toNat < 0xC000
      · have hnot : ¬0xE000 ≤ addr.toNat := by omega
        simpa [hlow, hnot] using ⟨hscheduled, henabled, hlatch⟩
      · have hhigh : 0xE000 ≤ addr.toNat := by omega
        have hnot : ¬addr.toNat < 0xE000 := by omega
        rcases Nat.mod_two_eq_zero_or_one addr.toNat with heven | hodd
        · simpa [hlow, hhigh, hnot, heven] using ⟨hscheduled.disable, rfl, hlatch⟩
        · simpa [hlow, hhigh, hnot, hodd] using ⟨hscheduled.enable, rfl, hlatch⟩
    | clockLine =>
      have hpermitted : c.enabled = true := henabled.trans (hline rfl)
      have hclock : c.clock.enabled = permitted ops ∧ c.clock.latch = latch := by
        rw [clock_eq]
        exact ⟨henabled, hlatch⟩
      simpa [heed, Op.disables, Op.enables] using ⟨hscheduled.clock hpermitted, hclock⟩
    | reset => exact Bool.noConfusion hops.2
    | chrWrite addr v => simpa [heed, Op.disables, Op.enables] using ⟨hscheduled, henabled, hlatch⟩
    | clockCycle => simpa [heed, Op.disables, Op.enables] using ⟨hscheduled, henabled, hlatch⟩

end LineCounter

/-! ### Boards -/

/-- **The MMC3 requests interrupts on an exact schedule.**  On a board numbered 4, a request stands
after a history exactly if a line has brought the counter to zero while requests were permitted, and
neither a write to register `$E000` nor a reset has come since.

After the writes that set up the counter of any board with an MMC3, and as long as it is not set up
anew and no line is drawn between a write to `$E000` and one to `$E001`, a request stands exactly if
a multiple of one more than the latch lies after the line of the last write to `$E000`, and not
after the last line. -/
theorem line_schedule {cart : Cartridge} (hid : cart.mapperId = 4) :
    ∃ b, ofCartridge cart = some b ∧
      (∀ ops : List Op, (b.run ops).irq = true ↔
        ∃ before after s, ops = before ++ .clockLine :: after ∧ (b.run before).chip = .mmc3 s ∧
          s.lines.enabled = true ∧ s.lines.clock.counter = 0 ∧
          ∀ o ∈ after, o.disables = false ∧ o ≠ .reset) ∧
      ∀ (b' : Board) (s : Mmc3), b'.chip = .mmc3 s →
        ∀ (latch v v' v'' : UInt8) (ops : List Op), (∀ o ∈ ops, o.setsLines = false) →
          Attended ops →
          (((Ppu.armLines b' latch v v' v'').run ops).irq = true ↔
            ∃ m, withdrawn ops < m * (latch.toNat + 1) ∧ m * (latch.toNat + 1) ≤ lines ops) := by
  have hchip : chipFor cart = some (.mmc3 (.powerOn cart.mirroring)) := by
    simp only [chipFor, hid]
  obtain ⟨b, hb, hbchip, -⟩ := exists_board hchip
  refine ⟨b, hb, ?_, ?_⟩
  · intro ops
    rw [irq_run hbchip, LineCounter.pending_run_iff rfl]
    refine exists_congr fun before => exists_congr fun after => ?_
    obtain ⟨s, hs, hlines⟩ := exists_lines_run hbchip before
    rw [hs]
    simp [Op.withdraws, ← hlines]
  · intro b' s hs latch v v' v'' ops hops hattended
    obtain ⟨hscheduled, -, hlatch⟩ := LineCounter.scheduled_run latch hops hattended
    rw [irq_run (Ppu.chip_armLines hs latch v v' v''), hscheduled.pending, hlatch]

/-- With a latch of two, the sixth line requests an interrupt again after an acknowledgement of the
third one's request that came two lines late. -/
theorem line_schedule_two :
    let cart : Cartridge :=
      { prgRom := #[0xEA], chr := #[0], chrIsRam := true, trainer := none
        mirroring := .horizontal, mapperId := 4, submapper := 0, tvSystem := .ntsc
        dialect := .iNes, battery := false, prgRamSize := 0, miscRom := #[] }
    let late : List Op := .replicate 5 .clockLine ++ [.prgWrite 0xE000 0, .prgWrite 0xFFFF 0]
    ∃ b, ofCartridge cart = some b ∧
      ((Ppu.armLines b 2 0 0 0).run late).irq = false ∧
      ((Ppu.armLines b 2 0 0 0).run (late ++ [.clockCycle, .clockLine])).irq = true := by
  intro cart late
  obtain ⟨b, hb, -, hrun⟩ := @line_schedule cart rfl
  have hchip : b.chip = .mmc3 (.powerOn .horizontal) := by
    obtain rfl := Option.some.inj hb
    rfl
  refine ⟨b, hb, ?_, ?_⟩
  · rw [← Bool.not_eq_true, hrun b _ hchip 2 0 0 0 late (by decide) (by decide)]
    rintro ⟨m, hlt, hle⟩
    exact absurd (Nat.lt_of_lt_of_le hlt hle) (by decide)
  · exact (hrun b _ hchip 2 0 0 0 _ (by decide) (by decide)).2 ⟨2, by decide, by decide⟩

end Nes.Board
