import Nes.Proofs.Apu.Dmc
import Mathlib.Tactic.SplitIfs

/-!
# The bytes of a sample

While a sample is being read, the sample channel is clocked, written to and fed, in any order
(`Dmc.Op`).  The reader asks for a byte when its buffer is empty, and it is fed only when it asks
(`Dmc.Answered`).

What it asks for next depends on the number of bytes fed alone (`Dmc.Sample.request`): byte after
byte of the sample, whose memory goes on at `$8000` after `$FFFF` (`Dmc.byteAddr`), then nothing
more, or the first byte again if the sample is to be started over.  `Dmc.Reading` says where the
reader stands; every operation keeps it (`Dmc.Reading.act`).  The timer empties the buffer within
`Dmc.ticksToTake` ticks, so that a byte which is left is asked for (`Dmc.sample_fetched`).
-/

namespace Nes.Apu.Dmc

/-! ### Operations -/

/-- What happens to the sample channel while a sample is being read. -/
inductive Op
  /-- A tick of the timer. -/
  | tick
  /-- A write to a register of the channel. -/
  | write (register : Nat) (v : UInt8)
  /-- The reader receives a byte. -/
  | feed (v : UInt8)
deriving DecidableEq, Repr

namespace Op

/-- A tick. -/
def isTick : Op → Bool
  | tick => true
  | _ => false

/-- A byte for the reader. -/
def isFeed : Op → Bool
  | feed _ => true
  | _ => false

/-- The operation does not disturb the reader.  The level may be written at any time; address and
length may if the sample is not to be started over, since they are for the next one then. -/
def Spares (looping : Bool) : Op → Prop
  | write register _ => register % 4 ≠ 0 ∧ (looping = true → register % 4 = 1)
  | _ => True

end Op

/-- The channel after an operation. -/
def act (d : Dmc) : Op → Dmc
  | .tick => d.tick
  | .write register v => d.write register v
  | .feed v => d.feed v

/-- The channel after some operations. -/
def run (d : Dmc) (ops : List Op) : Dmc := ops.foldl act d

/-- The reader is fed only when it asks for a byte. -/
def Answered (d : Dmc) : List Op → Prop
  | [] => True
  | op :: ops => (op.isFeed = true → d.fetchAddress.isSome = true) ∧ (d.act op).Answered ops

/-! ### Samples -/

/-- The address of byte `i` of a sample: memory of samples goes on at `$8000` after `$FFFF`. -/
def byteAddr (start : UInt16) (i : Nat) : UInt16 :=
  .ofNat (if start.toNat + i ≤ 0xFFFF then start.toNat + i else start.toNat + i - 0x8000)

/-- What the registers say of a sample. -/
structure Sample where
  /-- The byte that selects where it starts. -/
  address : UInt8
  /-- The byte that selects its length. -/
  length : UInt8
  /-- Its end starts it over. -/
  looping : Bool
  /-- Its end requests an interrupt. -/
  irqEnabled : Bool
deriving DecidableEq, Repr

namespace Sample

/-- Where the sample starts. -/
def start (s : Sample) : UInt16 := 0xC000 + s.address.toUInt16 * 64

/-- The number of its bytes. -/
def size (s : Sample) : Nat := 16 * s.length.toNat + 1

/-- The address that the reader wants when so many bytes have been fed. -/
def request (s : Sample) (fed : Nat) : Option UInt16 :=
  if s.looping then some (byteAddr s.start (fed % s.size))
  else if fed < s.size then some (byteAddr s.start fed)
  else none

variable (s : Sample)

theorem toNat_start : s.start.toNat = 0xC000 + 64 * s.address.toNat := by
  have := s.address.toNat_lt
  rw [start, UInt16.toNat_add, UInt16.toNat_mul, UInt8.toNat_toUInt16]
  change (0xC000 + s.address.toNat * 64 % 65536) % 65536 = _
  omega

theorem size_pos : 0 < s.size := Nat.succ_pos _

theorem size_le : s.size ≤ 4081 := by
  have := s.length.toNat_lt
  unfold size
  omega

end Sample

theorem toNat_byteAddr (s : Sample) {i : Nat} (hi : i ≤ s.size) :
    (byteAddr s.start i).toNat =
      if s.start.toNat + i ≤ 0xFFFF then s.start.toNat + i else s.start.toNat + i - 0x8000 := by
  have := s.size_le
  have := s.start.toNat_lt
  refine UInt16.toNat_ofNat_of_lt' ?_
  change _ < 65536
  split <;> omega

theorem byteAddr_zero (s : Sample) : byteAddr s.start 0 = s.start := by
  have := s.start.toNat_lt
  rw [← UInt16.toNat_inj, toNat_byteAddr s (Nat.zero_le _), if_pos (by omega), Nat.add_zero]

theorem nextAddr_byteAddr (s : Sample) {i : Nat} (hi : i < s.size) :
    nextAddr (byteAddr s.start i) = byteAddr s.start (i + 1) := by
  have hstart := s.toNat_start
  have hsize := s.size_le
  have hlt := s.address.toNat_lt
  have haddr := toNat_byteAddr s (Nat.le_of_lt hi)
  rw [← UInt16.toNat_inj, toNat_byteAddr s (Nat.succ_le_of_lt hi)]
  unfold nextAddr
  split
  · next hend =>
    have hend : (byteAddr s.start i).toNat = 0xFFFF := by rw [eq_of_beq hend]; rfl
    rw [haddr] at hend
    change 0x8000 = _
    split_ifs at hend ⊢ <;> omega
  · next hend =>
    have hend : (byteAddr s.start i).toNat ≠ 0xFFFF := fun h =>
      hend (beq_iff_eq.2 (UInt16.toNat_inj.1 h))
    rw [haddr] at hend
    rw [UInt16.toNat_add, haddr]
    change (_ + 1) % 65536 = _
    split_ifs at hend ⊢ <;> omega

/-- The bytes of a sample lie at different addresses. -/
theorem byteAddr_ne (s : Sample) {i j : Nat} (hij : i < j) (hj : j < s.size) :
    byteAddr s.start i ≠ byteAddr s.start j := by
  intro h
  have hstart := s.toNat_start
  have hsize := s.size_le
  have hlt := s.start.toNat_lt
  have h := congrArg UInt16.toNat h
  rw [toNat_byteAddr s (by omega), toNat_byteAddr s (Nat.le_of_lt hj)] at h
  split at h <;> split at h <;> omega

/-! ### Where the reader stands -/

/-- The number of the byte that comes after so many of them. -/
def Sample.position (s : Sample) (fed : Nat) : Nat := if s.looping then fed % s.size else fed

theorem Sample.position_zero (s : Sample) : s.position 0 = 0 := by
  unfold Sample.position
  split
  · exact Nat.zero_mod _
  · rfl

/-- One byte more, but for the last one of a sample that is started over. -/
theorem Sample.position_succ (s : Sample) {k : Nat}
    (h : s.looping = true → s.position k + 1 < s.size) :
    s.position (k + 1) = s.position k + 1 := by
  unfold Sample.position at h ⊢
  split
  · next hlooping =>
    have hlt := h hlooping
    rw [if_pos hlooping] at hlt
    rw [← Nat.mod_add_mod, Nat.mod_eq_of_lt hlt]
  · rfl

theorem Sample.position_again {s : Sample} (hlooping : s.looping = true) {k : Nat}
    (h : s.position k + 1 = s.size) : s.position (k + 1) = 0 := by
  unfold Sample.position at h ⊢
  rw [if_pos hlooping] at h ⊢
  rw [← Nat.mod_add_mod, h, Nat.mod_self]

theorem Sample.request_eq (s : Sample) (k : Nat) :
    s.request k =
      if s.position k < s.size then some (byteAddr s.start (s.position k)) else none := by
  unfold Sample.request Sample.position
  split
  · rw [if_pos (Nat.mod_lt _ s.size_pos)]
  · rfl

/-- So many bytes of a sample have been fed. -/
structure Reading (d : Dmc) (s : Sample) (fed : Nat) : Prop where
  /-- There are no more of them than the sample has, if it is not started over. -/
  le : s.position fed ≤ s.size
  /-- The address of the next byte. -/
  currentAddr : d.currentAddr = byteAddr s.start (s.position fed)
  /-- The bytes left. -/
  remaining : d.remaining = s.size - s.position fed
  /-- The sample is to be started over, or not. -/
  looping : d.looping = s.looping
  /-- It is to request an interrupt, or not. -/
  irqEnabled : d.irqEnabled = s.irqEnabled
  /-- It has requested one if it is over. -/
  irq : d.irq = (s.irqEnabled && decide (s.position fed = s.size))
  /-- A sample that is started over is the one that the registers tell. -/
  again : s.looping = true → d.sampleAddr = s.start ∧ d.sampleLength = s.size

/-- A sample is started: its address and its length are set, and the channel is enabled. -/
def startSample (d : Dmc) (address length : UInt8) : Dmc :=
  ((d.write 0x4012 address).write 0x4013 length).setEnabled true

theorem reading_startSample {d : Dmc} (hdone : d.remaining = 0) (hirq : d.irq = false)
    (address length : UInt8) :
    (d.startSample address length).Reading ⟨address, length, d.looping, d.irqEnabled⟩ 0 := by
  have hstart : d.startSample address length =
      ({ d with
        sampleAddr := 0xC000 + address.toUInt16 * 64
        sampleLength := 16 * length.toNat + 1 } : Dmc).restart := by
    change (if d.remaining = 0 then _ else _) = _
    rw [if_pos hdone]
    rfl
  rw [hstart]
  constructor
  case le => rw [Sample.position_zero]; exact Nat.zero_le _
  case currentAddr => rw [Sample.position_zero, byteAddr_zero]; rfl
  case remaining => rw [Sample.position_zero]; rfl
  case irq =>
    rw [Sample.position_zero, decide_eq_false (Nat.ne_of_lt (Sample.size_pos _)), Bool.and_false]
    exact hirq
  case looping => rfl
  case irqEnabled => rfl
  case again => exact fun _ => ⟨rfl, rfl⟩

namespace Reading

variable {d : Dmc} {s : Sample} {k : Nat}

theorem active_eq (h : d.Reading s k) : d.active = (s.request k).isSome := by
  rw [s.request_eq, active, h.remaining]
  have := h.le
  split
  · exact decide_eq_true (by omega)
  · exact decide_eq_false (by omega)

theorem fetchAddress_eq (h : d.Reading s k) :
    d.fetchAddress = if d.buffer.isNone then s.request k else none := by
  rw [fetchAddress, h.active_eq, h.currentAddr, s.request_eq]
  cases d.buffer.isNone <;> split <;> rfl

/-- The output unit does not disturb the reader. -/
theorem tick (h : d.Reading s k) : d.tick.Reading s k := by
  unfold Dmc.tick clockBit
  split
  · exact ⟨h.le, h.currentAddr, h.remaining, h.looping, h.irqEnabled, h.irq, h.again⟩
  · dsimp only
    split
    · split <;> exact ⟨h.le, h.currentAddr, h.remaining, h.looping, h.irqEnabled, h.irq, h.again⟩
    · exact ⟨h.le, h.currentAddr, h.remaining, h.looping, h.irqEnabled, h.irq, h.again⟩

/-- Neither do the registers, if they are spared. -/
theorem write (h : d.Reading s k) {register : Nat} {v : UInt8}
    (hspares : (Op.write register v).Spares s.looping) : (d.write register v).Reading s k := by
  obtain ⟨hcontrol, hlevel⟩ := hspares
  have hagain : register % 4 ≠ 1 → s.looping = true → False := fun hne hlooping =>
    hne (hlevel hlooping)
  unfold Dmc.write
  split
  · next h0 => exact absurd h0 hcontrol
  · exact ⟨h.le, h.currentAddr, h.remaining, h.looping, h.irqEnabled, h.irq, h.again⟩
  · next h2 =>
    exact ⟨h.le, h.currentAddr, h.remaining, h.looping, h.irqEnabled, h.irq,
      fun hlooping => (hagain (by omega) hlooping).elim⟩
  · next h1 _ =>
    exact ⟨h.le, h.currentAddr, h.remaining, h.looping, h.irqEnabled, h.irq,
      fun hlooping => (hagain h1 hlooping).elim⟩

end Reading

/-! A byte is one of several, the last one, or the last one of a sample that is started over. -/

theorem feed_inside {d : Dmc} (h : 1 < d.remaining) (v : UInt8) :
    d.feed v = { d with
      buffer := some v
      currentAddr := nextAddr d.currentAddr
      remaining := d.remaining - 1 } := by
  unfold feed
  exact if_neg (show ¬d.remaining - 1 = 0 by omega)

theorem feed_last {d : Dmc} (h : d.remaining = 1) (hlooping : d.looping = false) (v : UInt8) :
    d.feed v = { d with
      buffer := some v
      currentAddr := nextAddr d.currentAddr
      remaining := 0
      irq := d.irq || d.irqEnabled } := by
  simp only [feed, h, hlooping, Nat.sub_self, Bool.false_eq_true, ↓reduceIte]

theorem feed_again {d : Dmc} (h : d.remaining = 1) (hlooping : d.looping = true) (v : UInt8) :
    d.feed v = { d with
      buffer := some v
      currentAddr := d.sampleAddr
      remaining := d.sampleLength } := by
  simp only [feed, h, hlooping, Nat.sub_self, ↓reduceIte, restart]

namespace Reading

variable {d : Dmc} {s : Sample} {k : Nat}

/-- A byte that was asked for takes the reader on. -/
theorem feed (h : d.Reading s k) (hlt : s.position k < s.size) (v : UInt8) :
    (d.feed v).Reading s (k + 1) := by
  have hremaining := h.remaining
  have hnext : nextAddr d.currentAddr = byteAddr s.start (s.position k + 1) := by
    rw [h.currentAddr, nextAddr_byteAddr s hlt]
  have hnot : d.irq = false := by
    rw [h.irq, decide_eq_false (Nat.ne_of_lt hlt), Bool.and_false]
  by_cases hmore : s.position k + 1 < s.size
  · have hposition := s.position_succ fun _ => hmore
    rw [feed_inside (by omega)]
    constructor
    case le => omega
    case currentAddr => rw [hposition]; exact hnext
    case remaining => rw [hposition, ← Nat.sub_sub, ← hremaining]
    case irq =>
      rw [hposition, decide_eq_false (Nat.ne_of_lt hmore), Bool.and_false]
      exact hnot
    case looping => exact h.looping
    case irqEnabled => exact h.irqEnabled
    case again => exact h.again
  · have hlast : s.position k + 1 = s.size := by omega
    cases hlooping : s.looping with
    | false =>
      have hposition : s.position (k + 1) = s.position k + 1 :=
        s.position_succ fun htrue => by rw [hlooping] at htrue; cases htrue
      rw [feed_last (by omega) (h.looping.trans hlooping)]
      constructor
      case le => omega
      case currentAddr => rw [hposition]; exact hnext
      case remaining => rw [hposition, hlast, Nat.sub_self]
      case irq =>
        rw [hposition, decide_eq_true hlast, Bool.and_true, hnot, Bool.false_or]
        exact h.irqEnabled
      case looping => exact h.looping
      case irqEnabled => exact h.irqEnabled
      case again => exact h.again
    | true =>
      have hposition := Sample.position_again hlooping hlast
      obtain ⟨haddr, hlength⟩ := h.again hlooping
      rw [feed_again (by omega) (h.looping.trans hlooping)]
      constructor
      case le => rw [hposition]; exact Nat.zero_le _
      case currentAddr => rw [hposition, byteAddr_zero]; exact haddr
      case remaining => rw [hposition]; exact hlength
      case irq =>
        rw [hposition, decide_eq_false (Nat.ne_of_lt s.size_pos), Bool.and_false]
        exact hnot
      case looping => exact h.looping
      case irqEnabled => exact h.irqEnabled
      case again => exact h.again

/-- The reader is fed only when a byte is left. -/
theorem lt_of_wants (h : d.Reading s k) (hwants : d.fetchAddress.isSome = true) :
    s.position k < s.size := by
  rw [h.fetchAddress_eq, s.request_eq] at hwants
  split_ifs at hwants with hempty hlt
  · exact hlt
  all_goals exact Bool.noConfusion hwants

/-- **Every operation keeps the place of the reader**, which moves on with each byte fed. -/
theorem act (h : d.Reading s k) {op : Op} (hspares : op.Spares s.looping)
    (hwants : op.isFeed = true → d.fetchAddress.isSome = true) :
    (d.act op).Reading s (k + if op.isFeed then 1 else 0) := by
  cases op with
  | tick => exact h.tick
  | write register v => exact h.write hspares
  | feed v => exact h.feed (h.lt_of_wants (hwants rfl)) v

theorem run (h : d.Reading s k) {ops : List Op} (hspares : ∀ op ∈ ops, op.Spares s.looping)
    (hanswered : d.Answered ops) : (d.run ops).Reading s (k + ops.countP Op.isFeed) := by
  induction ops generalizing d k with
  | nil => exact h
  | cons op ops ih =>
    rw [List.forall_mem_cons] at hspares
    rw [List.countP_cons, Nat.add_comm (List.countP _ ops), ← Nat.add_assoc]
    exact ih (h.act hspares.1 hanswered.1) hspares.2 hanswered.2

end Reading

/-! ### The buffer -/

/-- The ticks after which the buffer has been emptied. -/
def ticksToTake (d : Dmc) : Nat := d.timer + 1 + (d.bits - 1) * max d.period 1

/-- A tick brings the time closer at which the buffer is emptied, or empties it. -/
theorem buffer_tick (d : Dmc) :
    d.tick.buffer = none ∨ d.tick.buffer = d.buffer ∧ d.tick.ticksToTake + 1 = d.ticksToTake := by
  have hmul : 1 < d.bits →
      (d.bits - 1) * max d.period 1 = (d.bits - 1 - 1) * max d.period 1 + max d.period 1 := by
    intro hbits
    rw [← Nat.succ_mul]
    congr 1
    omega
  obtain ⟨hperiod, hcases⟩ := d.tick_cases
  simp only [ticksToTake, hperiod]
  rcases hcases with ⟨_, htimer, hbits, _, hbuffer⟩ | ⟨_, hmore, htimer, hbits, _, hbuffer⟩ |
    ⟨_, _, _, _, hbuffer⟩
  · rw [htimer, hbits]
    exact Or.inr ⟨hbuffer, by omega⟩
  · have hmul := hmul hmore
    rw [htimer, hbits]
    exact Or.inr ⟨hbuffer, by omega⟩
  · exact Or.inl hbuffer

/-- **The buffer is emptied in time**, and stays empty until it is fed. -/
theorem buffer_run {looping : Bool} {d : Dmc} {ops : List Op}
    (hops : ∀ op ∈ ops, op.isFeed = false ∧ op.Spares looping)
    (h : d.buffer = none ∨ d.ticksToTake ≤ ops.countP Op.isTick) : (d.run ops).buffer = none := by
  induction ops generalizing d with
  | nil =>
    rcases h with h | h
    · exact h
    · exact absurd h (by simp [ticksToTake])
  | cons op ops ih =>
    rw [List.forall_mem_cons] at hops
    obtain ⟨⟨hfeed, hspares⟩, hrest⟩ := hops
    refine ih hrest ?_
    cases op with
    | tick =>
      rw [List.countP_cons_of_pos rfl] at h
      rcases d.buffer_tick with hnone | ⟨hbuffer, htake⟩
      · exact Or.inl hnone
      · rcases h with h | h
        · exact Or.inl (hbuffer.trans h)
        · exact Or.inr (show d.tick.ticksToTake ≤ _ by omega)
    | write register v =>
      rw [List.countP_cons_of_neg Bool.false_ne_true] at h
      have hwrite : (d.write register v).buffer = d.buffer ∧
          (d.write register v).ticksToTake = d.ticksToTake := by
        unfold write
        split
        · next h0 => exact absurd h0 hspares.1
        all_goals exact ⟨rfl, rfl⟩
      rw [act, hwrite.1, hwrite.2]
      exact h
    | feed v => exact Bool.noConfusion hfeed

/-- Nothing has to be answered where nothing is fed. -/
theorem answered_of_no_feed {d : Dmc} {ops : List Op} (hops : ∀ op ∈ ops, op.isFeed = false) :
    d.Answered ops := by
  induction ops generalizing d with
  | nil => trivial
  | cons op ops ih =>
    rw [List.forall_mem_cons] at hops
    exact ⟨fun hfeed => Bool.noConfusion (hops.1.symm.trans hfeed), ih hops.2⟩

theorem Reading.run_of_no_feed {d : Dmc} {s : Sample} {k : Nat} (h : d.Reading s k)
    {ops : List Op} (hops : ∀ op ∈ ops, op.isFeed = false ∧ op.Spares s.looping) :
    (d.run ops).Reading s k := by
  have hfeeds : ops.countP Op.isFeed = 0 :=
    List.countP_eq_zero.2 fun op hop => by rw [(hops op hop).1]; exact Bool.false_ne_true
  have hrun := h.run (fun op hop => (hops op hop).2)
    (answered_of_no_feed fun op hop => (hops op hop).1)
  rwa [hfeeds] at hrun

/-! ### Samples are fetched -/

/-- **A sample is fetched byte by byte.**  The channel has no sample to read and requests no
interrupt; it gets a sample's address and length, and is enabled.  After any operations that spare
the reader and feed it only when it asks, say with `k` bytes:

* they are no more than the sample has, unless it is started over;
* with an empty buffer, the reader asks for what comes after `k` bytes: byte `k` of the sample, or
  byte `k` modulo its size if it is started over, or nothing;
* the channel is active if it has something to ask for;
* it requests an interrupt once it has got the last byte, if that is enabled, and never if the
  sample is started over;
* what it asks for it asks for until it is fed, and if it does not ask yet, it will after a number
  of ticks.

The bytes of the sample lie at different addresses. -/
theorem sample_fetched {d : Dmc} (hdone : d.remaining = 0) (hirq : d.irq = false)
    (address length : UInt8) {ops : List Op} (hspares : ∀ op ∈ ops, op.Spares d.looping)
    (hanswered : (d.startSample address length).Answered ops) :
    let s : Sample := ⟨address, length, d.looping, d.irqEnabled⟩
    let e := (d.startSample address length).run ops
    let k := ops.countP Op.isFeed
    (s.looping = false → k ≤ s.size) ∧
    e.fetchAddress = (if e.buffer.isNone then s.request k else none) ∧
    e.active = (s.request k).isSome ∧
    e.irq = (s.irqEnabled && !s.looping && decide (k = s.size)) ∧
    (∀ more : List Op, (∀ op ∈ more, op.isFeed = false ∧ op.Spares d.looping) →
      (e.fetchAddress.isSome = true → (e.run more).fetchAddress = e.fetchAddress) ∧
      (e.ticksToTake ≤ more.countP Op.isTick → (e.run more).fetchAddress = s.request k)) ∧
    ∀ i j, i < j → j < s.size → byteAddr s.start i ≠ byteAddr s.start j := by
  intro s e k
  have he : e.Reading s k := by
    have hrun := (reading_startSample hdone hirq address length).run hspares hanswered
    rwa [Nat.zero_add] at hrun
  have hempty : ∀ {more : List Op}, (∀ op ∈ more, op.isFeed = false ∧ op.Spares d.looping) →
      e.buffer = none ∨ e.ticksToTake ≤ more.countP Op.isTick →
      (e.run more).fetchAddress = s.request k := by
    intro more hmore h
    rw [(he.run_of_no_feed hmore).fetchAddress_eq, buffer_run hmore h]
    rfl
  refine ⟨fun hlooping => ?_, he.fetchAddress_eq, he.active_eq, ?_, fun more hmore => ⟨?_, ?_⟩,
    fun i j hij hj => byteAddr_ne s hij hj⟩
  · have hle := he.le
    rwa [Sample.position, hlooping] at hle
  · rw [he.irq, Sample.position]
    cases s.looping with
    | false => simp
    | true => simp [Nat.ne_of_lt (Nat.mod_lt k s.size_pos)]
  · intro hwants
    cases hbuffer : e.buffer with
    | none => rw [hempty hmore (Or.inl hbuffer), he.fetchAddress_eq, hbuffer]; rfl
    | some v =>
      rw [he.fetchAddress_eq, hbuffer] at hwants
      cases hwants
  · exact fun h => hempty hmore (Or.inr h)

/-- Two bytes of a sample near the end of memory have been fed, the first one plays, and the address
has been written for the next sample: 432 ticks later the third byte is asked for. -/
theorem sample_fetched_third :
    let d : Dmc := { period := 54, irqEnabled := true }
    let e := (d.startSample 0xFF 0x01).run [.feed 1, .tick, .write 0x4012 0, .feed 2]
    e.fetchAddress = none ∧ e.irq = false ∧
      (e.run (List.replicate 432 .tick)).fetchAddress = some 0xFFC2 := by
  intro d e
  have hspares : ∀ op ∈ [Op.feed 1, .tick, .write 0x4012 0, .feed 2], op.Spares d.looping := by
    simp only [List.forall_mem_cons]
    exact ⟨trivial, trivial, ⟨by decide, nofun⟩, trivial, nofun⟩
  have hanswered : (d.startSample 0xFF 0x01).Answered
      [.feed 1, .tick, .write 0x4012 0, .feed 2] :=
    ⟨fun _ => rfl, nofun, nofun, fun _ => rfl, trivial⟩
  obtain ⟨-, hfetch, -, hirq, hmore, -⟩ := sample_fetched rfl rfl 0xFF 0x01 hspares hanswered
  have hthird : Sample.request ⟨0xFF, 0x01, false, true⟩ 2 = some 0xFFC2 := rfl
  refine ⟨hfetch, hirq, ((hmore (List.replicate 432 .tick) fun op hop => ?_).2 ?_).trans hthird⟩
  · rw [(List.mem_replicate.1 hop).2]
    exact ⟨rfl, trivial⟩
  · rw [List.countP_replicate]
    decide

end Nes.Apu.Dmc
