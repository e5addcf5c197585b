import Nes.Proofs.Board.VrcRegisters
import Nes.Proofs.Countdown
import Mathlib.Algebra.Order.Floor.Div
import Mathlib.Data.List.DropRight
import Mathlib.Tactic.IntervalCases

/-!
# The schedule of a VRC4

A write to register `$F002` that enables the counter of a VRC4 starts a schedule of requests
(`fireTime`).  The counter overflows once in `period` counts; it counts cycles, or lines of 341
thirds of a cycle, and `counts` tells how many of these have passed.

The counts divided by the period, and what is left over, are the overflows so far and the place of
the counter (`CycleCounter.Counting`), and the thirds left over stand in the prescaler
(`CycleCounter.Scheduled`); a cycle keeps this (`Scheduled.clock`), and so does an acknowledgement
(`Scheduled.acknowledge`), which moves nothing but the time up to which requests are withdrawn.  So
a request stands exactly if a fire time has passed since the last acknowledgement
(`counter_schedule`).
-/

namespace Nes.Board

/-! ### Fire times -/

/-- The counts from one overflow to the next, the last of which overflows. -/
def period (latch : UInt8) : Nat := 256 - latch.toNat

/-- The counts in a number of cycles: the cycles, or the lines of 341 thirds of a cycle. -/
def counts (cycleMode : Bool) (cycles : Nat) : Nat :=
  if cycleMode then cycles else 3 * cycles / 341

/-- The cycle of an overflow. -/
def fireTime (cycleMode : Bool) (latch : UInt8) (m : Nat) : Nat :=
  if cycleMode then m * period latch else (341 * m * period latch) ⌈/⌉ 3

theorem period_pos (latch : UInt8) : 0 < period latch := Nat.sub_pos_of_lt latch.toNat_lt

theorem counts_mono (cycleMode : Bool) {n n' : Nat} (h : n ≤ n') :
    counts cycleMode n ≤ counts cycleMode n' := by
  unfold counts
  split
  · exact h
  · exact Nat.div_le_div_right (Nat.mul_le_mul_left 3 h)

/-- An overflow has come if there have been enough counts for it. -/
theorem fireTime_le_iff {cycleMode : Bool} {latch : UInt8} {m n : Nat} :
    fireTime cycleMode latch m ≤ n ↔ m ≤ counts cycleMode n / period latch := by
  rw [Nat.le_div_iff_mul_le (period_pos latch)]
  unfold fireTime counts
  cases cycleMode with
  | true => exact Iff.rfl
  | false =>
    rw [if_neg Bool.false_ne_true, if_neg Bool.false_ne_true, ceilDiv_le_iff_le_mul (by decide),
      Nat.le_div_iff_mul_le (by decide), Nat.mul_comm _ 341, Nat.mul_assoc]

/-- Some overflow has come in the meantime if there are more of them now. -/
theorem exists_fireTime {cycleMode : Bool} {latch : UInt8} {n n' : Nat} :
    (∃ m > 0, n < fireTime cycleMode latch m ∧ fireTime cycleMode latch m ≤ n') ↔
      counts cycleMode n / period latch < counts cycleMode n' / period latch := by
  have hlt (m : Nat) :
      n < fireTime cycleMode latch m ↔ counts cycleMode n / period latch < m := by
    rw [← Nat.not_le, fireTime_le_iff, Nat.not_le]
  simp only [hlt, fireTime_le_iff]
  constructor
  · rintro ⟨m, -, hnot, hle⟩
    exact hnot.trans_le hle
  · exact fun h => ⟨_, Nat.zero_lt_of_lt h, h, Nat.le_refl _⟩

/-! ### The counter -/

namespace CycleCounter

variable {c : CycleCounter}

/-- The counter has counted from its latch on, and a request stands if it has overflowed since there
were `acked` counts. -/
structure Counting (c : CycleCounter) (count acked : Nat) : Prop where
  /-- The place of the counter. -/
  counter : c.counter.toNat = c.latch.toNat + count % period c.latch
  /-- The request. -/
  pending : c.pending = true ↔ acked / period c.latch < count / period c.latch

theorem Counting.advance {count acked : Nat} (h : c.Counting count acked) (hle : acked ≤ count) :
    c.advance.Counting (count + 1) acked := by
  have hlatch := c.latch.toNat_lt
  have hmod := Nat.mod_lt count (period_pos c.latch)
  have hcounter := h.counter
  have hfull : c.counter == 0xFF ↔ count % period c.latch + 1 = period c.latch := by
    rw [beq_iff_eq, ← UInt8.toNat_inj, hcounter, period]
    change _ = 255 ↔ _
    rw [period] at hmod
    omega
  have hsucc := Countdown.succ_div_mod (period_pos c.latch) count
  by_cases hlast : count % period c.latch + 1 = period c.latch
  · obtain ⟨hdiv, hzero⟩ := (if_pos hlast).mp hsucc
    have hadvance : c.advance = { c with counter := c.latch, pending := true } :=
      if_pos (hfull.2 hlast)
    have hacked : acked / period c.latch ≤ count / period c.latch := Nat.div_le_div_right hle
    rw [hadvance]
    constructor
    · simp only [hzero, Nat.add_zero]
    · simp only [hdiv, true_iff]
      omega
  · obtain ⟨hdiv, hnext⟩ := (if_neg hlast).mp hsucc
    have hadvance : c.advance = { c with counter := c.counter + 1 } := if_neg (hfull.not.2 hlast)
    rw [hadvance]
    constructor
    · have hsmall : c.latch.toNat + count % period c.latch + 1 < 256 := by
        have hperiod : period c.latch = 256 - c.latch.toNat := rfl
        omega
      simp only [hnext, UInt8.toNat_add, hcounter]
      exact (Nat.mod_eq_of_lt hsmall).trans (Nat.add_assoc ..)
    · simp only [hdiv, h.pending]

/-- The counter has been running for a number of cycles, and was acknowledged after `acked`. -/
structure Scheduled (c : CycleCounter) (cycles acked : Nat) : Prop where
  /-- Counting goes on. -/
  enabled : c.enabled = true
  /-- The acknowledgement lies in the past. -/
  acked_le : acked ≤ cycles
  /-- The thirds of a cycle that do not make a line. -/
  prescaler : c.cycleMode = false → c.prescaler = 341 - 3 * cycles % 341
  /-- The counts. -/
  counting : c.Counting (counts c.cycleMode cycles) (counts c.cycleMode acked)

theorem Scheduled.pending_iff {n a : Nat} (h : c.Scheduled n a) :
    c.pending = true ↔
      ∃ m > 0, a < fireTime c.cycleMode c.latch m ∧ fireTime c.cycleMode c.latch m ≤ n :=
  h.counting.pending.trans exists_fireTime.symm

/-- An overflow leaves the settings alone. -/
theorem settings_advance (c : CycleCounter) :
    c.advance.latch = c.latch ∧ c.advance.cycleMode = c.cycleMode ∧
      c.advance.enabled = c.enabled ∧ c.advance.enabledAfterAck = c.enabledAfterAck := by
  unfold advance
  split <;> exact ⟨rfl, rfl, rfl, rfl⟩

theorem settings_clock (c : CycleCounter) :
    c.clock.latch = c.latch ∧ c.clock.cycleMode = c.cycleMode ∧
      c.clock.enabled = c.enabled ∧ c.clock.enabledAfterAck = c.enabledAfterAck := by
  unfold clock
  split
  · exact ⟨rfl, rfl, rfl, rfl⟩
  split
  · exact c.settings_advance
  split
  · exact settings_advance _
  · exact ⟨rfl, rfl, rfl, rfl⟩

theorem clock_of_cycles (henabled : c.enabled = true) (hmode : c.cycleMode = true) :
    c.clock = c.advance := by
  unfold clock
  rw [henabled, hmode]
  rfl

theorem clock_of_lines (henabled : c.enabled = true) (hmode : c.cycleMode = false) :
    c.clock =
      if c.prescaler ≤ 3 then { c with prescaler := c.prescaler + lineLength - 3 }.advance
      else { c with prescaler := c.prescaler - 3 } := by
  unfold clock
  rw [henabled, hmode]
  rfl

/-- **A cycle brings the next fire time nearer.** -/
theorem Scheduled.clock {n a : Nat} (h : c.Scheduled n a) : c.clock.Scheduled (n + 1) a := by
  obtain ⟨-, hmode, henabled, -⟩ := c.settings_clock
  have hacked := counts_mono c.cycleMode h.acked_le
  have hcounting := h.counting
  refine ⟨henabled.trans h.enabled, Nat.le_succ_of_le h.acked_le, ?_, ?_⟩
  · rw [hmode]
    intro hlines
    have hprescaler := h.prescaler hlines
    rw [clock_of_lines h.enabled hlines]
    split
    · rw [Vrc.prescaler_advance, lineLength]
      dsimp only
      omega
    · dsimp only
      omega
  · rw [hmode]
    cases hlines : c.cycleMode with
    | true =>
      rw [hlines] at hcounting hacked
      rw [clock_of_cycles h.enabled hlines]
      exact hcounting.advance hacked
    | false =>
      rw [hlines] at hcounting hacked
      have hprescaler := h.prescaler hlines
      rw [clock_of_lines h.enabled hlines]
      -- The prescaler tells whether three more thirds complete a line.
      split
      · have hcounts : counts false (n + 1) = counts false n + 1 := by
          simp only [counts, Bool.false_eq_true, ↓reduceIte]
          omega
        rw [hcounts]
        exact Counting.advance ⟨hcounting.counter, hcounting.pending⟩ hacked
      · have hcounts : counts false (n + 1) = counts false n := by
          simp only [counts, Bool.false_eq_true, ↓reduceIte]
          omega
        rw [hcounts]
        exact ⟨hcounting.counter, hcounting.pending⟩

/-- **An acknowledgement withdraws the request and shifts nothing.** -/
theorem Scheduled.acknowledge {n a : Nat} (h : c.Scheduled n a)
    (hkept : c.enabledAfterAck = true) : c.acknowledge.Scheduled n n where
  enabled := hkept
  acked_le := Nat.le_refl n
  prescaler := h.prescaler
  counting := ⟨h.counting.counter, by simp [CycleCounter.acknowledge]⟩

theorem scheduled_control (c : CycleCounter) {v : UInt8} (h : (v &&& 0x02 != 0) = true) :
    (c.control v).Scheduled 0 0 := by
  have hcontrol : c.control v =
      { c with
        enabledAfterAck := v &&& 0x01 != 0, enabled := true, cycleMode := v &&& 0x04 != 0
        pending := false, counter := c.latch, prescaler := lineLength } := by
    unfold control
    simp only [h, ↓reduceIte]
  rw [hcontrol]
  refine ⟨rfl, Nat.le_refl 0, fun _ => rfl, ?_⟩
  have hzero : counts (v &&& 0x04 != 0) 0 = 0 := by
    unfold counts
    split <;> rfl
  constructor
  · simp only [hzero, Nat.zero_mod, Nat.add_zero]
  · simp only [hzero, Nat.lt_irrefl, Bool.false_eq_true]

theorem settings_control (c : CycleCounter) (v : UInt8) :
    (c.control v).latch = c.latch ∧ (c.control v).cycleMode = (v &&& 0x04 != 0) ∧
      (c.control v).enabledAfterAck = (v &&& 0x01 != 0) := by
  unfold control
  dsimp only
  split <;> exact ⟨rfl, rfl, rfl⟩

/-- A counter that is not enabled stands still. -/
theorem clock_of_disabled (h : c.enabled = false) : c.clock = c := by
  unfold clock
  rw [h]
  rfl

end CycleCounter

/-! ### Writes to the counter -/

section

variable {s : Vrc} {addr : UInt16} {low up : Bool}

/-- The last page of a VRC4 has the registers of the counter. -/
theorem Vrc.write_counter (hvrc4 : s.wiring ≠ .vrc2a)
    (h : s.wiring.register addr = 0xF * 0x1000 + up.toNat * 2 + low.toNat) (v : UInt8) :
    s.write addr v = s.writeIrq (low, up) v := by
  obtain ⟨hpage, hlow, hup⟩ := Wiring.register_eq_iff.1 h
  unfold write
  rw [Wiring.select_eq, Wiring.toNat_page, hpage, hlow, hup]
  simp [isVrc2a, hvrc4]

/-- The other pages leave it alone. -/
theorem Vrc.irq_write (haddr : 0x8000 ≤ addr.toNat) (h : s.wiring.register addr < 0xF000)
    (v : UInt8) : (s.write addr v).irq = s.irq := by
  have hpage : addr.toNat / 0x1000 = 8 ∨ addr.toNat / 0x1000 = 9 ∨
      (0xA ≤ addr.toNat / 0x1000 ∧ addr.toNat / 0x1000 ≤ 0xE) := by
    have hbounds := s.wiring.register_bounds addr
    omega
  rw [← Wiring.toNat_page] at hpage
  unfold write
  generalize (addr >>> 12).toNat = page at hpage
  obtain rfl | rfl | ⟨hle, hge⟩ := hpage
  · rfl
  · change (if s.isVrc2a || !(s.wiring.select addr).2 then s.writeMirroring v else
      if (s.wiring.select addr).1 then s else { s with swapped := v &&& 0x02 != 0 }).irq = s.irq
    split
    · rfl
    · split <;> rfl
  · interval_cases page <;> rfl

end

/-! ### A history -/

/-- The cycles in a history. -/
def cycles (ops : List Op) : Nat := ops.count .clockCycle

theorem cycles_concat (ops : List Op) (o : Op) :
    cycles (ops ++ [o]) = cycles ops + if o = .clockCycle then 1 else 0 := by
  simp [cycles, List.count_singleton]

namespace Wiring

/-- The operation acknowledges a request. -/
def acknowledges (w : Wiring) : Op → Bool
  | .prgWrite addr _ => w.register addr == 0xF003
  | .chrWrite .. | .clockLine | .clockCycle | .reset => false

/-- The operation sets the counter anew. -/
def sets (w : Wiring) : Op → Bool
  | .prgWrite addr _ => 0xF000 ≤ w.register addr && w.register addr < 0xF003
  | .reset => true
  | .chrWrite .. | .clockLine | .clockCycle => false

/-- The cycles in a history up to its last acknowledgement, zero if there is none. -/
def acked (w : Wiring) (ops : List Op) : Nat := cycles (ops.rdropWhile fun o => !w.acknowledges o)

variable {w : Wiring}

theorem acked_concat (ops : List Op) (o : Op) :
    w.acked (ops ++ [o]) = if w.acknowledges o then cycles (ops ++ [o]) else w.acked ops := by
  unfold acked
  rw [List.rdropWhile_concat]
  cases w.acknowledges o <;> rfl

theorem ne_clockCycle_of_acknowledges {o : Op} (h : w.acknowledges o = true) :
    o ≠ .clockCycle := by
  rintro rfl
  exact Bool.noConfusion h

end Wiring

/-- What an operation that does not set the counter anew does to it. -/
def CycleCounter.heed (c : CycleCounter) (w : Wiring) (o : Op) : CycleCounter :=
  if w.acknowledges o then c.acknowledge else if o = .clockCycle then c.clock else c

theorem Vrc.exists_heed {s : Vrc} (hvrc4 : s.wiring ≠ .vrc2a) {o : Op}
    (ho : s.wiring.sets o = false) :
    ∃ s', o.onChip (.vrc s) = .vrc s' ∧ s'.wiring = s.wiring ∧ s'.irq = s.irq.heed s.wiring o := by
  cases o with
  | prgWrite addr v =>
    have hbounds := s.wiring.register_bounds addr
    have hlt := addr.toNat_lt
    by_cases haddr : addr ≥ 0x8000
    · refine ⟨s.write addr v, if_pos haddr, s.wiring_write addr v, ?_⟩
      simp only [Wiring.sets, Bool.and_eq_false_iff, decide_eq_false_iff_not] at ho
      by_cases hack : s.wiring.register addr = 0xF003
      · have hregister : s.wiring.register addr = 0xF * 0x1000 + true.toNat * 2 + true.toNat := hack
        rw [write_counter hvrc4 hregister]
        simp [writeIrq, CycleCounter.heed, Wiring.acknowledges, hack]
      · rw [irq_write (high_iff.1 haddr) (by omega)]
        simp [CycleCounter.heed, Wiring.acknowledges, hack]
    · have hlow := Nat.not_le.1 (high_iff.not.1 haddr)
      have hack : s.wiring.register addr ≠ 0xF003 := by omega
      refine ⟨s, if_neg haddr, rfl, ?_⟩
      simp [CycleCounter.heed, Wiring.acknowledges, hack]
  | chrWrite addr v => exact ⟨s, rfl, rfl, rfl⟩
  | clockLine => exact ⟨s, rfl, rfl, rfl⟩
  | clockCycle => exact ⟨{ s with irq := s.irq.clock }, rfl, rfl, rfl⟩
  | reset => exact Bool.noConfusion ho

/-- The counter after a history since it was set: it runs on schedule, unless an acknowledgement has
stopped it. -/
structure CycleCounter.Follows (c start : CycleCounter) (w : Wiring) (ops : List Op) : Prop where
  /-- Where the counter starts over from. -/
  latch : c.latch = start.latch
  /-- What it counts. -/
  cycleMode : c.cycleMode = start.cycleMode
  /-- Whether an acknowledgement stops it. -/
  enabledAfterAck : c.enabledAfterAck = start.enabledAfterAck
  /-- It runs on schedule. -/
  goes : (start.enabledAfterAck || !ops.any w.acknowledges) = true →
    c.Scheduled (cycles ops) (w.acked ops)
  /-- It stands still. -/
  stands : (start.enabledAfterAck || !ops.any w.acknowledges) = false →
    c.enabled = false ∧ c.pending = false

namespace CycleCounter.Follows

variable {c start : CycleCounter} {w : Wiring} {ops : List Op} {o : Op}

theorem acknowledge (h : c.Follows start w ops) (ho : w.acknowledges o = true) :
    c.acknowledge.Follows start w (ops ++ [o]) := by
  have hany : (start.enabledAfterAck || !(ops ++ [o]).any w.acknowledges) =
      start.enabledAfterAck := by
    simp [ho]
  have hcycles : cycles (ops ++ [o]) = cycles ops := by
    rw [cycles_concat, if_neg (Wiring.ne_clockCycle_of_acknowledges ho), Nat.add_zero]
  refine ⟨h.latch, h.cycleMode, h.enabledAfterAck, fun hkept => ?_, fun hstopped => ?_⟩
  · rw [hany] at hkept
    rw [Wiring.acked_concat, if_pos ho, hcycles]
    exact (h.goes (by rw [hkept, Bool.true_or])).acknowledge (h.enabledAfterAck.trans hkept)
  · exact ⟨h.enabledAfterAck.trans (hany ▸ hstopped), rfl⟩

/-- What does not acknowledge a request leaves it to the cycles whether the counter runs. -/
theorem of_not_acknowledges (h : c.Follows start w ops) (ho : w.acknowledges o = false)
    {c' : CycleCounter}
    (hsettings : c'.latch = c.latch ∧ c'.cycleMode = c.cycleMode ∧
      c'.enabledAfterAck = c.enabledAfterAck)
    (hgoes : ∀ a, c.Scheduled (cycles ops) a → c'.Scheduled (cycles (ops ++ [o])) a)
    (hstands : c.enabled = false → c' = c) : c'.Follows start w (ops ++ [o]) := by
  obtain ⟨hlatch, hmode, hafter⟩ := hsettings
  have hany : (ops ++ [o]).any w.acknowledges = ops.any w.acknowledges := by
    simp [ho]
  refine ⟨hlatch.trans h.latch, hmode.trans h.cycleMode, hafter.trans h.enabledAfterAck, ?_, ?_⟩
  · rw [hany, Wiring.acked_concat, ho, if_neg Bool.false_ne_true]
    exact fun hgo => hgoes _ (h.goes hgo)
  · rw [hany]
    intro hstand
    have hstill := h.stands hstand
    rwa [hstands hstill.1]

theorem heed (h : c.Follows start w ops) (o : Op) :
    (c.heed w o).Follows start w (ops ++ [o]) := by
  unfold CycleCounter.heed
  cases ho : w.acknowledges o with
  | true => exact h.acknowledge ho
  | false =>
    rw [if_neg Bool.false_ne_true]
    split
    · next hcycle =>
      obtain ⟨hlatch, hmode, -, hafter⟩ := c.settings_clock
      refine h.of_not_acknowledges ho ⟨hlatch, hmode, hafter⟩ (fun a hgoes => ?_) clock_of_disabled
      rw [cycles_concat, if_pos hcycle]
      exact hgoes.clock
    · next hidle =>
      refine h.of_not_acknowledges ho ⟨rfl, rfl, rfl⟩ (fun a hgoes => ?_) fun _ => rfl
      rwa [cycles_concat, if_neg hidle]

end CycleCounter.Follows

/-- **The counter of a board follows its schedule through every history that does not set it.** -/
theorem Vrc.irq_run {b : Board} {s : Vrc} (hchip : b.chip = .vrc s) (hvrc4 : s.wiring ≠ .vrc2a)
    (hrunning : s.irq.Scheduled 0 0) {ops : List Op} (hops : ∀ o ∈ ops, s.wiring.sets o = false) :
    ∃ s', (b.run ops).chip = .vrc s' ∧ s'.wiring = s.wiring ∧
      s'.irq.Follows s.irq s.wiring ops := by
  induction ops using List.reverseRecOn with
  | nil => exact ⟨s, hchip, rfl, rfl, rfl, rfl, fun _ => hrunning, fun h => by simp at h⟩
  | append_singleton ops o ih =>
    rw [List.forall_mem_append, List.forall_mem_singleton] at hops
    obtain ⟨s', hs', hwiring, hfollows⟩ := ih hops.1
    obtain ⟨t, ht, hwiring', hirq⟩ := exists_heed (hwiring.trans_ne hvrc4) (hwiring ▸ hops.2)
    rw [hwiring] at hirq hwiring'
    refine ⟨t, ?_, hwiring', hirq ▸ hfollows.heed o⟩
    rw [chip_run_concat, hs', ht]

/-- **The VRC4 requests interrupts on an exact schedule.**  After a write to register `$F002` that
enables the counter, whatever has happened to the board before and whatever happens to it then short
of a reset and of writes to registers `$F000` to `$F002`, a request stands exactly if a fire time
lies after the last acknowledgement, or after that write if there was none, and not in the future;
and, if an acknowledgement stops the counter, there was none. -/
theorem counter_schedule {b : Board} {s : Vrc} (hchip : b.chip = .vrc s)
    (hvrc4 : s.wiring ≠ .vrc2a) {addr : UInt16} (haddr : s.wiring.register addr = 0xF002)
    {v : UInt8} (hv : (v &&& 0x02 != 0) = true) {ops : List Op}
    (hops : ∀ o ∈ ops, s.wiring.sets o = false) :
    ((b.prgWrite addr v).run ops).irq = true ↔
      ((v &&& 0x01 != 0) = true ∨ ∀ o ∈ ops, s.wiring.acknowledges o = false) ∧
      ∃ m > 0, s.wiring.acked ops < fireTime (v &&& 0x04 != 0) s.irq.latch m ∧
        fireTime (v &&& 0x04 != 0) s.irq.latch m ≤ cycles ops := by
  have hregister : s.wiring.register addr = 0xF * 0x1000 + true.toNat * 2 + false.toNat := haddr
  have hbounds := s.wiring.register_bounds addr
  have hhigh : addr ≥ 0x8000 := high_iff.2 (by omega)
  have hwrite : (b.prgWrite addr v).chip = .vrc { s with irq := s.irq.control v } := by
    rw [prgWrite_of_high b hhigh, hchip, Chip.write, Vrc.write_counter hvrc4 hregister]
    rfl
  obtain ⟨hlatch, hmode, hafter⟩ := s.irq.settings_control v
  obtain ⟨s', hs', -, hfollows⟩ :=
    Vrc.irq_run hwrite hvrc4 (CycleCounter.scheduled_control s.irq hv) hops
  have hirq : ((b.prgWrite addr v).run ops).irq = s'.irq.pending := by
    rw [Board.irq, hs', Chip.irq]
  have hkept : ((v &&& 0x01 != 0) = true ∨ ∀ o ∈ ops, s.wiring.acknowledges o = false) ↔
      ((s.irq.control v).enabledAfterAck || !ops.any s.wiring.acknowledges) = true := by
    simp [hafter]
  rw [hirq, hkept]
  -- Either the counter still goes, or an acknowledgement has stopped it for good.
  cases hgo : (s.irq.control v).enabledAfterAck || !ops.any s.wiring.acknowledges with
  | true =>
    rw [(hfollows.goes hgo).pending_iff, hfollows.latch, hfollows.cycleMode, hlatch, hmode]
    simp
  | false =>
    simp [(hfollows.stands hgo).2]

/-- A period of two counts.  In lines, the second overflow comes after 454 and two thirds cycles,
and it is not shifted by an acknowledgement of the first one. -/
theorem counter_schedule_two :
    let cart : Cartridge :=
      { prgRom := #[0xEA], chr := #[0], chrIsRam := true, trainer := none
        mirroring := .horizontal, mapperId := 23, submapper := 0, tvSystem := .ntsc
        dialect := .iNes, battery := false, prgRamSize := 0, miscRom := #[] }
    let latch : List Op := [.prgWrite 0xF000 0x0E, .prgWrite 0xF001 0x0F]
    ∃ b, ofCartridge cart = some b ∧
      (((b.run latch).prgWrite 0xF002 0x06).run [.clockCycle, .clockLine, .clockCycle]).irq = true ∧
      (((b.run latch).prgWrite 0xF002 0x03).run
        (.replicate 228 .clockCycle ++ [.prgWrite 0xF003 0] ++ .replicate 227 .clockCycle)).irq =
        true := by
  intro cart latch
  have hchip : chipFor cart = some (.vrc { wiring := .vrc2bOr4ef, mirroring := .horizontal }) := rfl
  obtain ⟨b, hb, -⟩ := exists_board hchip
  have hlatch : (b.run latch).chip = .vrc
      { wiring := .vrc2bOr4ef, mirroring := .horizontal, irq := { latch := 0xFE } } := by
    obtain rfl := Option.some.inj hb
    decide
  refine ⟨b, hb, ?_, ?_⟩
  · refine (counter_schedule hlatch (by decide) (by decide) (by decide) (by decide)).2
      ⟨.inr (by decide), 1, by decide⟩
  · refine (counter_schedule hlatch (by decide) (by decide) (by decide) ?_).2
      ⟨.inl (by decide), 2, ?_⟩
    · decide +kernel
    · decide +kernel

end Nes.Board
