import Nes.Proofs.Apu.SampleReader

/-!
# The bits of a sample

The output unit of the sample channel plays bits, one after the other, the lowest bit of a byte
first.  When the last bit of a byte has been played it takes the byte from the buffer, if there is
one, and is silent for eight bits if there is none.

A run of ticks, in which the buffer may be fed, is told by the states before its ticks
(`Dmc.beforeTicks`): which of them end a bit (`Dmc.endsBit`), and what is taken at the ends of bytes
(`Dmc.taken`).  Nothing is lost in between: the bits that were to be played and those of the bytes
taken are the bits played and those still to be played (`Dmc.exists_played`), and the bytes taken
and the one still in the buffer are the one that was there and the bytes fed
(`Dmc.taken_append_buffer`).  As long as the rate stays the same, bits end at equal distances
(`Dmc.endsBit_beforeTicks`).  `Dmc.bytes_played` puts this together.
-/

namespace Nes.Apu.Dmc

/-! ### What is played -/

/-- The eight bits that are played for what has been taken from the buffer, the lowest one first;
`none` is a bit of silence. -/
def bitsOf : Option UInt8 → List (Option Bool)
  | some v => (List.range 8).map fun i => some (v.toNat.testBit i)
  | none => List.replicate 8 none

/-- The level after a bit: two more or two less, as long as it keeps to seven bits. -/
def levelAfter (level : Nat) : Option Bool → Nat
  | some true => if level ≤ 125 then level + 2 else level
  | some false => if 2 ≤ level then level - 2 else level
  | none => level

/-- Bit `i` of those being played. -/
def bitAt (d : Dmc) (i : Nat) : Option Bool := if d.silent then none else some (d.shift.testBit i)

/-- The bits left, the one that ends next in front. -/
def pending (d : Dmc) : List (Option Bool) := (List.range (max d.bits 1)).map d.bitAt

/-! ### What can be told of a run -/

/-- A bit ends with the next tick. -/
def endsBit (d : Dmc) : Bool := d.timer == 0

/-- The last bit of a byte ends with the next tick. -/
def endsByte (d : Dmc) : Bool := d.endsBit && decide (d.bits ≤ 1)

/-- The states before the ticks of a run, in order. -/
def beforeTicks (d : Dmc) : List Op → List Dmc
  | [] => []
  | .tick :: ops => d :: d.tick.beforeTicks ops
  | .write register v :: ops => (d.write register v).beforeTicks ops
  | .feed v :: ops => (d.feed v).beforeTicks ops

/-- What is in the buffer at the ends of the bytes in a run, and is taken from it. -/
def taken (d : Dmc) (ops : List Op) : List (Option UInt8) :=
  ((d.beforeTicks ops).filter endsByte).map (·.buffer)

namespace Op

/-- The byte that an operation feeds, if it does. -/
def byte? : Op → Option UInt8
  | feed v => some v
  | _ => none

/-- The operation is none of the registers'. -/
def Plays (op : Op) : Prop := op.isTick = true ∨ op.isFeed = true

theorem not_plays_write {register : Nat} {v : UInt8} : ¬(write register v).Plays := by
  rintro (h | h) <;> exact Bool.noConfusion h

end Op

/-! ### A tick -/

section

variable {d : Dmc}

/-- Within a bit, only the timer runs. -/
theorem tick_within (h : d.endsBit = false) :
    d.tick = { d with timer := d.timer - 1 } ∧ d.endsByte = false := by
  have hpos : 0 < d.timer := Nat.pos_of_ne_zero (beq_eq_false_iff_ne.1 h)
  exact ⟨if_pos hpos, by rw [endsByte, h, Bool.false_and]⟩

theorem tick_ends (h : d.endsBit = true) : d.tick = { d.clockBit with timer := d.period - 1 } := by
  have hzero : ¬0 < d.timer := by rw [eq_of_beq h]; exact Nat.lt_irrefl 0
  exact if_neg hzero

theorem nextLevel_eq (d : Dmc) : d.nextLevel = levelAfter d.level (d.bitAt 0) := by
  unfold nextLevel bitAt
  split
  · rfl
  · rw [Nat.testBit_zero]
    split
    · next hodd => rw [decide_eq_true hodd]; rfl
    · next heven => rw [decide_eq_false heven]; rfl

theorem level_tick (h : d.endsBit = true) : d.tick.level = levelAfter d.level (d.bitAt 0) := by
  rw [tick_ends h, ← nextLevel_eq]
  unfold clockBit
  dsimp only
  split
  · split <;> rfl
  · rfl

/-- Where a bit ends but no byte does, the other bits are left. -/
theorem pending_tick_of_not_endsByte (h : d.endsBit = true) (hbyte : d.endsByte = false) :
    d.pending = d.bitAt 0 :: d.tick.pending ∧ d.tick.buffer = d.buffer := by
  have hbits : 1 < d.bits := by
    rw [endsByte, h, Bool.true_and, decide_eq_false_iff_not] at hbyte
    omega
  have hmax : max d.bits 1 = max (d.bits - 1) 1 + 1 := by omega
  have hshift : ∀ i, d.bitAt (i + 1) = ({ d with shift := d.shift / 2 } : Dmc).bitAt i := by
    intro i
    rw [bitAt, bitAt, Nat.testBit_succ]
  have htick : d.tick = { d with
      level := d.nextLevel
      shift := d.shift / 2
      bits := d.bits - 1
      timer := d.period - 1 } := by
    rw [tick_ends h, clockBit]
    dsimp only
    rw [if_neg (by omega)]
  rw [htick]
  refine ⟨?_, rfl⟩
  rw [pending, hmax, List.range_succ_eq_map, List.map_cons, List.map_map]
  exact congrArg (d.bitAt 0 :: ·) (List.map_congr_left fun i _ => hshift i)

/-- Where a byte ends, its last bit is followed by those of what is taken from the buffer. -/
theorem pending_tick_of_endsByte (h : d.endsByte = true) :
    d.pending = [d.bitAt 0] ∧ d.tick.pending = bitsOf d.buffer ∧ d.tick.buffer = none := by
  obtain ⟨hbit, hbits⟩ := Bool.and_eq_true_iff.1 h
  have hbits : d.bits ≤ 1 := of_decide_eq_true hbits
  have hmax : max d.bits 1 = 1 := by omega
  refine ⟨by rw [pending, hmax]; rfl, ?_⟩
  rw [tick_ends hbit, clockBit]
  dsimp only
  rw [if_pos (by omega)]
  cases d.buffer with
  | none => exact ⟨rfl, rfl⟩
  | some v => exact ⟨rfl, rfl⟩

/-- What is taken from the buffer in a tick. -/
def takes (d : Dmc) : List (Option UInt8) := if d.endsByte then [d.buffer] else []

/-- The bit that ends in a tick. -/
def ends (d : Dmc) : List (Option Bool) := if d.endsBit then [d.bitAt 0] else []

/-- **A tick loses no bit**, and the level follows those that end. -/
theorem pending_tick (d : Dmc) :
    d.pending ++ d.takes.flatMap bitsOf = d.ends ++ d.tick.pending ∧
      d.tick.level = d.ends.foldl levelAfter d.level := by
  unfold takes ends
  cases hbit : d.endsBit with
  | false =>
    obtain ⟨htick, hbyte⟩ := tick_within hbit
    rw [htick, hbyte]
    exact ⟨List.append_nil _, rfl⟩
  | true =>
    refine ⟨?_, level_tick hbit⟩
    cases hbyte : d.endsByte with
    | false =>
      rw [(pending_tick_of_not_endsByte hbit hbyte).1]
      exact List.append_nil _
    | true =>
      obtain ⟨hlast, hnext, -⟩ := pending_tick_of_endsByte hbyte
      rw [hlast, hnext]
      exact congrArg (d.bitAt 0 :: ·) (List.append_nil _)

/-- **A tick loses no byte.** -/
theorem buffer_tick_append (d : Dmc) :
    d.takes.filterMap id ++ d.tick.buffer.toList = d.buffer.toList := by
  unfold takes
  cases hbit : d.endsBit with
  | false =>
    obtain ⟨htick, hbyte⟩ := tick_within hbit
    rw [htick, hbyte]
    rfl
  | true =>
    cases hbyte : d.endsByte with
    | false =>
      rw [(pending_tick_of_not_endsByte hbit hbyte).2]
      rfl
    | true =>
      rw [(pending_tick_of_endsByte hbyte).2.2]
      cases d.buffer <;> rfl

end

/-! ### Runs -/

theorem taken_tick (d : Dmc) (ops : List Op) :
    d.taken (.tick :: ops) = d.takes ++ d.tick.taken ops := by
  simp only [taken, takes, beforeTicks, List.filter_cons]
  split <;> rfl

theorem countP_endsBit_tick (d : Dmc) (ops : List Op) :
    (d.beforeTicks (.tick :: ops)).countP endsBit =
      d.ends.length + (d.tick.beforeTicks ops).countP endsBit := by
  rw [beforeTicks, List.countP_cons, Nat.add_comm, ends]
  split <;> rfl

/-- The output unit does not notice that the buffer is fed. -/
theorem output_feed (d : Dmc) (v : UInt8) :
    (d.feed v).pending = d.pending ∧ (d.feed v).level = d.level := by
  simp only [feed]
  split
  · split <;> exact ⟨rfl, rfl⟩
  · exact ⟨rfl, rfl⟩

/-- **No bit is lost, and none is played twice.** -/
theorem exists_played (d : Dmc) {ops : List Op} (hops : ∀ op ∈ ops, op.Plays) :
    ∃ played : List (Option Bool), played.length = (d.beforeTicks ops).countP endsBit ∧
      d.pending ++ (d.taken ops).flatMap bitsOf = played ++ (d.run ops).pending ∧
      (d.run ops).level = played.foldl levelAfter d.level := by
  induction ops generalizing d with
  | nil => exact ⟨[], rfl, List.append_nil _, rfl⟩
  | cons op ops ih =>
    rw [List.forall_mem_cons] at hops
    cases op with
    | tick =>
      obtain ⟨hstep, hlevel⟩ := d.pending_tick
      obtain ⟨played, hcount, hbits, hlevels⟩ := ih d.tick hops.2
      refine ⟨d.ends ++ played, ?_, ?_, ?_⟩
      · rw [List.length_append, hcount, countP_endsBit_tick]
      · calc d.pending ++ (d.taken (.tick :: ops)).flatMap bitsOf
            = d.pending ++ d.takes.flatMap bitsOf ++ (d.tick.taken ops).flatMap bitsOf := by
              rw [taken_tick, List.flatMap_append, List.append_assoc]
          _ = d.ends ++ (d.tick.pending ++ (d.tick.taken ops).flatMap bitsOf) := by
              rw [hstep, List.append_assoc]
          _ = d.ends ++ played ++ (d.tick.run ops).pending := by
              rw [hbits, List.append_assoc]
      · rw [List.foldl_append, ← hlevel]
        exact hlevels
    | write register v => exact absurd hops.1 Op.not_plays_write
    | feed v =>
      obtain ⟨played, hcount, hbits, hlevels⟩ := ih (d.feed v) hops.2
      rw [(output_feed d v).1] at hbits
      rw [(output_feed d v).2] at hlevels
      exact ⟨played, hcount, hbits, hlevels⟩

/-- **No byte is lost, and none is taken twice.** -/
theorem taken_append_buffer {d : Dmc} {ops : List Op} (hops : ∀ op ∈ ops, op.Plays)
    (hanswered : d.Answered ops) :
    (d.taken ops).filterMap id ++ (d.run ops).buffer.toList =
      d.buffer.toList ++ ops.filterMap Op.byte? := by
  induction ops generalizing d with
  | nil => rw [List.filterMap_nil, List.append_nil]; rfl
  | cons op ops ih =>
    rw [List.forall_mem_cons] at hops
    obtain ⟨hwants, hrest⟩ := hanswered
    cases op with
    | tick =>
      have hstep := ih (d := d.tick) hops.2 hrest
      calc (d.taken (.tick :: ops)).filterMap id ++ (d.tick.run ops).buffer.toList
          = d.takes.filterMap id ++
              ((d.tick.taken ops).filterMap id ++ (d.tick.run ops).buffer.toList) := by
            rw [taken_tick, List.filterMap_append, List.append_assoc]
        _ = d.buffer.toList ++ ops.filterMap Op.byte? := by
            rw [hstep, ← List.append_assoc, buffer_tick_append]
    | write register v => exact absurd hops.1 Op.not_plays_write
    | feed v =>
      -- The buffer was empty, or the reader would not have asked.
      have hempty : d.buffer = none := by
        have hwants : d.wants = true := (fetchAddress_isSome d).symm.trans (hwants rfl)
        exact Option.isNone_iff_eq_none.1 (Bool.and_eq_true_iff.1 hwants).1
      have hstep := ih (d := d.feed v) hops.2 hrest
      rw [buffer_feed] at hstep
      rw [hempty]
      exact hstep

/-- With a rate that stays the same, bits end at equal distances from the first on. -/
theorem endsBit_beforeTicks {d : Dmc} (hperiod : 0 < d.period) {ops : List Op}
    (hops : ∀ op ∈ ops, op.Plays) {n : Nat} {e : Dmc} (he : (d.beforeTicks ops)[n]? = some e) :
    e.endsBit = true ↔ d.timer ≤ n ∧ d.period ∣ n - d.timer := by
  induction ops generalizing d n with
  | nil => cases he
  | cons op ops ih =>
    rw [List.forall_mem_cons] at hops
    cases op with
    | tick =>
      cases n with
      | zero =>
        obtain rfl : d = e := Option.some.inj he
        rw [Nat.zero_sub, endsBit, beq_iff_eq, Nat.le_zero]
        exact (and_iff_left (Nat.dvd_zero _)).symm
      | succ n =>
        have hstep := ih (d := d.tick) (by rw [d.tick_cases.1]; exact hperiod) hops.2 he
        rw [d.tick_cases.1] at hstep
        rw [hstep]
        cases hbit : d.endsBit with
        | false =>
          -- The first bit is one tick closer.
          have hpos : d.timer ≠ 0 := beq_eq_false_iff_ne.1 hbit
          rw [(tick_within hbit).1]
          dsimp only
          rw [show n - (d.timer - 1) = n + 1 - d.timer by omega]
          exact and_congr_left fun _ => by omega
        | true =>
          -- The first bit ends now, and the next one after a period.
          have hzero : d.timer = 0 := eq_of_beq hbit
          rw [tick_ends hbit, hzero]
          dsimp only
          rw [Nat.sub_zero, show n - (d.period - 1) = n + 1 - d.period by omega]
          refine ⟨fun ⟨hle, hdvd⟩ => ⟨Nat.zero_le _, ?_⟩, fun ⟨_, hdvd⟩ => ?_⟩
          · exact (Nat.dvd_sub_iff_left (by omega) (Nat.dvd_refl _)).1 hdvd
          · have hle := Nat.le_of_dvd n.succ_pos hdvd
            exact ⟨by omega, Nat.dvd_sub hdvd (Nat.dvd_refl _)⟩
    | write register v => exact absurd hops.1 Op.not_plays_write
    | feed v =>
      have hstep := ih (d := d.feed v) (by rw [period_feed]; exact hperiod) hops.2 he
      rwa [period_feed, timer_feed] at hstep

/-! ### Bytes are played -/

/-- **Every byte is played once, in order, and bit by bit from the lowest.**  At any rate of the
register, and in any run of ticks in which the reader is fed only when it asks:

* a bit ends at the ticks whose distance from the first such tick is a multiple of the period;
* what is taken from the buffer, with what is left in it, is what was in it and the bytes fed, in
  order;
* to be played are the bits left at the start and the eight bits of each byte taken, or eight bits
  of silence where there was no byte to take; the level is what these bits lead to as far as they
  have ended, and the others are left. -/
theorem bytes_played {d : Dmc} {rate : Fin 16} (hrate : d.period = periods.get rate)
    {ops : List Op} (hops : ∀ op ∈ ops, op.Plays) (hanswered : d.Answered ops) :
    let bits := d.pending ++ (d.taken ops).flatMap bitsOf
    let ended := (d.beforeTicks ops).countP endsBit
    (∀ n e, (d.beforeTicks ops)[n]? = some e →
      (e.endsBit = true ↔ d.timer ≤ n ∧ d.period ∣ n - d.timer)) ∧
    (d.taken ops).filterMap id ++ (d.run ops).buffer.toList =
      d.buffer.toList ++ ops.filterMap Op.byte? ∧
    (d.run ops).level = (bits.take ended).foldl levelAfter d.level ∧
    (d.run ops).pending = bits.drop ended := by
  intro bits ended
  have hperiod : 0 < d.period := by
    have hslow := slow_periods rate
    omega
  obtain ⟨played, hcount, hbits, hlevel⟩ := d.exists_played hops
  have hended : ended = played.length := hcount.symm
  refine ⟨fun n e he => endsBit_beforeTicks hperiod hops he, taken_append_buffer hops hanswered,
    ?_, ?_⟩
  · rw [hlevel, hended, show bits = played ++ (d.run ops).pending from hbits, List.take_left]
  · rw [hended, show bits = played ++ (d.run ops).pending from hbits, List.drop_left]

/-- At power-on a bit of silence ends at once.  Then eight ones let the level rise by sixteen, and
eight zeros are left when they have ended. -/
theorem bytes_played_ones :
    let d : Dmc := { period := 54, level := 0x40, remaining := 2 }
    let ops : List Op := [.feed 0xFF, .tick, .feed 0x00] ++ List.replicate 432 .tick
    (d.run ops).level = 0x50 ∧ (d.run ops).pending = bitsOf (some 0) ∧
      (d.run ops).buffer = none := by
  intro d ops
  have hops : ∀ op ∈ ops, op.Plays := by
    intro op hop
    simp only [ops, List.mem_append, List.mem_cons, List.not_mem_nil, or_false,
      List.mem_replicate] at hop
    obtain (rfl | rfl | rfl) | ⟨-, rfl⟩ := hop
    · exact Or.inr rfl
    · exact Or.inl rfl
    · exact Or.inr rfl
    · exact Or.inl rfl
  have hanswered : d.Answered ops :=
    ⟨fun _ => rfl, nofun, fun _ => rfl, answered_of_no_feed fun op hop => by
      rw [(List.mem_replicate.1 hop).2]
      rfl⟩
  have htaken : d.taken ops = [some 0xFF, some 0] := by decide +kernel
  have hended : (d.beforeTicks ops).countP endsBit = 9 := by decide +kernel
  have hfed : ops.filterMap Op.byte? = [0xFF, 0] := by decide +kernel
  have hrate : d.period = periods.get (15 : Fin 16) := by decide
  obtain ⟨-, hbytes, hlevel, hpending⟩ := bytes_played hrate hops hanswered
  rw [htaken, hfed] at hbytes
  rw [htaken, hended] at hlevel hpending
  refine ⟨hlevel, hpending, ?_⟩
  cases hbuffer : (d.run ops).buffer with
  | none => rfl
  | some v =>
    rw [hbuffer] at hbytes
    cases hbytes

end Nes.Apu.Dmc
