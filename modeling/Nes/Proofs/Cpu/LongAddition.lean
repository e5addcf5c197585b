import Mathlib.Data.Nat.Digits.Lemmas
import Nes.Proofs.Cpu.Combined
import Nes.Proofs.Cpu.Traffic

/-!
# Addition of long numbers

The processor adds a byte at a time.  A row of bytes, the lowest first, stands for an unsigned
number (`unsigned`) and for a signed one in two's complement (`signed`).  `IsSum` says that a row of
bytes is the sum of two rows and a carry, and that the carry and overflow flags tell whether the sum
has left the unsigned and the signed numbers of this length; `IsDifference` says the same of
differences, where the carry is the absence of a borrow.

One addition of the processor is such a sum of single bytes (`isSum_add`), sums are put together
byte by byte (`IsSum.cons`), and subtraction is the addition of the complement
(`IsSum.isDifference`).  So a program that loads a byte of one number and adds or subtracts the byte
of another, again and again, calculates with numbers of any length
(`Machine.columns_exact`).
-/

namespace Nes.Cpu

/-! ### Rows of bytes as numbers -/

/-- The number that a row of bytes stands for, the lowest byte first. -/
def unsigned (bytes : List UInt8) : Nat := Nat.ofDigits 256 (bytes.map UInt8.toNat)

/-- The number that a row of bytes stands for in two's complement. -/
def signed (bytes : List UInt8) : Int := (unsigned bytes : Int).bmod (256 ^ bytes.length)

/-- A number fits so many bytes in two's complement. -/
def InRange (n : Nat) (i : Int) : Prop := -256 ^ n ≤ 2 * i ∧ 2 * i < 256 ^ n

theorem unsigned_cons (b : UInt8) (bytes : List UInt8) :
    unsigned (b :: bytes) = b.toNat + 256 * unsigned bytes := Nat.ofDigits_cons

theorem unsigned_singleton (b : UInt8) : unsigned [b] = b.toNat := Nat.ofDigits_singleton

theorem unsigned_lt (bytes : List UInt8) : unsigned bytes < 256 ^ bytes.length := by
  have hdigits : ∀ d ∈ bytes.map UInt8.toNat, d < 256 := by
    intro d hd
    obtain ⟨b, -, rfl⟩ := List.mem_map.1 hd
    exact b.toNat_lt
  have hlt := Nat.ofDigits_lt_base_pow_length (by decide) hdigits
  rwa [List.length_map] at hlt

/-- There is an even count of rows of any length but zero. -/
theorem two_mul_half {bytes : List UInt8} (h : bytes ≠ []) :
    ∃ half : Nat, 256 ^ bytes.length = 2 * half ∧
      (256 : Int) ^ bytes.length = (2 * half : Nat) := by
  obtain ⟨b, bytes, rfl⟩ := List.exists_cons_of_ne_nil h
  have heven : 256 ^ (b :: bytes).length = 2 * (128 * 256 ^ bytes.length) := by
    rw [List.length_cons, Nat.pow_succ]
    omega
  refine ⟨_, heven, ?_⟩
  rw [← heven]
  norm_cast

theorem signed_eq {bytes : List UInt8} (h : bytes ≠ []) :
    signed bytes = if 2 * unsigned bytes < 256 ^ bytes.length then (unsigned bytes : Int)
      else unsigned bytes - 256 ^ bytes.length := by
  obtain ⟨half, hhalf, hcast⟩ := two_mul_half h
  have hlt := unsigned_lt bytes
  rw [signed, Int.bmod_def, hcast, hhalf]
  rw [hhalf] at hlt
  rw [Int.emod_eq_of_lt (by omega) (by omega)]
  split <;> split <;> omega

theorem signed_cons (b : UInt8) {bytes : List UInt8} (h : bytes ≠ []) :
    signed (b :: bytes) = b.toNat + 256 * signed bytes := by
  obtain ⟨half, hhalf, hcast⟩ := two_mul_half h
  have hb := b.toNat_lt
  rw [signed_eq h, signed_eq (List.cons_ne_nil b bytes), unsigned_cons, List.length_cons,
    Nat.pow_succ, Int.pow_succ, hcast, hhalf]
  split <;> split <;> omega

theorem signed_singleton (b : UInt8) :
    signed [b] = if b.toNat < 128 then (b.toNat : Int) else b.toNat - 256 := by
  rw [signed_eq (List.cons_ne_nil b []), unsigned_singleton, List.length_singleton]
  split <;> split <;> omega

theorem inRange_succ (n : Nat) (r : Nat) (hr : r < 256) (i : Int) {half : Nat}
    (hhalf : (256 : Int) ^ n = (2 * half : Nat)) :
    InRange (n + 1) (r + 256 * i) ↔ InRange n i := by
  rw [InRange, InRange, Int.pow_succ, hhalf]
  omega

/-! ### Sums and differences -/

/-- The row `rs` is the sum of two rows and a carry, with the flags that belong to it. -/
structure IsSum (as bs : List UInt8) (carryIn : Bool) (rs : List UInt8) (s : Status) : Prop where
  /-- The sum has as many bytes as the first number. -/
  length : rs.length = as.length
  /-- What goes beyond these bytes is dropped. -/
  value : unsigned rs = (unsigned as + unsigned bs + carryIn.toNat) % 256 ^ as.length
  /-- The carry says that something has been dropped. -/
  carry : s.carry = true ↔ 256 ^ as.length ≤ unsigned as + unsigned bs + carryIn.toNat
  /-- The overflow says that the signed sum does not fit. -/
  overflow : s.overflow = true ↔ ¬InRange as.length (signed as + signed bs + carryIn.toNat)

/-- The row `rs` is the difference of two rows, less one unless there is a carry, with the flags
that belong to it. -/
structure IsDifference (as bs : List UInt8) (carryIn : Bool) (rs : List UInt8) (s : Status) :
    Prop where
  /-- The difference has as many bytes as the first number. -/
  length : rs.length = as.length
  /-- A difference below zero goes around. -/
  value : (unsigned rs : Int) =
    (unsigned as - unsigned bs - (1 - carryIn.toNat : Int)) % 256 ^ as.length
  /-- The carry says that the difference is not below zero. -/
  carry : s.carry = true ↔ unsigned bs + (1 - carryIn.toNat) ≤ unsigned as
  /-- The overflow says that the signed difference does not fit. -/
  overflow : s.overflow = true ↔
    ¬InRange as.length (signed as - signed bs - (1 - carryIn.toNat : Int))

variable {a b r : UInt8} {as bs rs : List UInt8} {carry : Bool} {s t : Status}

theorem ne_nil_of_length (has : as ≠ []) (hlength : bs.length = as.length) : bs ≠ [] := by
  rw [← List.length_pos_iff, hlength, List.length_pos_iff]
  exact has

/-- The lowest bytes are added first, and the others with the carry that this leaves. -/
theorem IsSum.cons (hlow : IsSum [a] [b] carry [r] s) (hhigh : IsSum as bs s.carry rs t)
    (has : as ≠ []) (hlength : bs.length = as.length) :
    IsSum (a :: as) (b :: bs) carry (r :: rs) t := by
  have hbs := ne_nil_of_length has hlength
  obtain ⟨half, -, hhalf⟩ := two_mul_half has
  have hr := r.toNat_lt
  -- The lowest byte and the carry out of it are the sum of the lowest bytes.
  have hsum : a.toNat + b.toNat + carry.toNat = r.toNat + 256 * s.carry.toNat := by
    have ha := a.toNat_lt
    have hb := b.toNat_lt
    have hc := carry.toNat_lt
    have hvalue := hlow.value
    have hcarry := hlow.carry
    simp only [unsigned_singleton, List.length_singleton, Nat.pow_one] at hvalue hcarry
    cases hs : s.carry with
    | true =>
      have := hcarry.1 hs
      change _ = r.toNat + 256 * 1
      omega
    | false =>
      have hnot : ¬256 ≤ a.toNat + b.toNat + carry.toNat := fun h => by
        rw [hcarry.2 h] at hs
        cases hs
      change _ = r.toNat + 256 * 0
      omega
  have htotal : unsigned (a :: as) + unsigned (b :: bs) + carry.toNat =
      r.toNat + 256 * (unsigned as + unsigned bs + s.carry.toNat) := by
    rw [unsigned_cons, unsigned_cons]
    omega
  have hsigned : signed (a :: as) + signed (b :: bs) + carry.toNat =
      r.toNat + 256 * (signed as + signed bs + s.carry.toNat) := by
    rw [signed_cons a has, signed_cons b hbs]
    omega
  refine ⟨congrArg (· + 1) hhigh.length, ?_, ?_, ?_⟩
  · have hhead : (r.toNat + 256 * (unsigned as + unsigned bs + s.carry.toNat)) % 256 = r.toNat := by
      omega
    have htail : (r.toNat + 256 * (unsigned as + unsigned bs + s.carry.toNat)) / 256 =
        unsigned as + unsigned bs + s.carry.toNat := by
      omega
    rw [htotal, unsigned_cons, hhigh.value, List.length_cons, Nat.pow_succ', Nat.mod_mul, hhead,
      htail]
  · rw [htotal, hhigh.carry, List.length_cons, Nat.pow_succ']
    omega
  · rw [hsigned, hhigh.overflow, List.length_cons, inRange_succ _ _ hr _ hhalf]

/-! ### The complement -/

theorem unsigned_complement (bytes : List UInt8) :
    unsigned (bytes.map (~~~·)) + unsigned bytes + 1 = 256 ^ bytes.length := by
  induction bytes with
  | nil => rfl
  | cons b bytes ih =>
    have hb := b.toNat_lt
    have hnot : (~~~b).toNat = 255 - b.toNat := UInt8.toNat_not b
    rw [List.map_cons, unsigned_cons, unsigned_cons, List.length_cons, Nat.pow_succ, ← ih, hnot]
    omega

theorem signed_complement (h : bs ≠ []) : signed (bs.map (~~~·)) = -1 - signed bs := by
  have hcomplement := unsigned_complement bs
  have hne : bs.map (~~~·) ≠ [] := fun hnil => h (List.map_eq_nil_iff.1 hnil)
  obtain ⟨half, hhalf, hcast⟩ := two_mul_half h
  rw [signed_eq h, signed_eq hne, List.length_map, hcast, hhalf]
  rw [hhalf] at hcomplement
  split <;> split <;> omega

/-- To add the complement is to subtract. -/
theorem IsSum.isDifference (h : IsSum as (bs.map (~~~·)) carry rs s) (has : as ≠ [])
    (hlength : bs.length = as.length) : IsDifference as bs carry rs s := by
  have hbs := ne_nil_of_length has hlength
  have hcomplement := unsigned_complement bs
  have hcarry := carry.toNat_lt
  rw [hlength] at hcomplement
  refine ⟨h.length, ?_, ?_, ?_⟩
  · have hcast : (256 : Int) ^ as.length = ((256 ^ as.length : Nat) : Int) := by norm_cast
    have hshift : ((unsigned as + unsigned (bs.map (~~~·)) + carry.toNat : Nat) : Int) =
        (unsigned as - unsigned bs - (1 - carry.toNat : Int)) + (256 ^ as.length : Nat) := by
      omega
    rw [h.value, Int.natCast_emod, hshift, hcast, Int.add_emod_right]
  · rw [h.carry]
    omega
  · rw [h.overflow, signed_complement hbs]
    have hsame : signed as + (-1 - signed bs) + (carry.toNat : Int) =
        signed as - signed bs - (1 - carry.toNat : Int) := by omega
    rw [hsame]

/-! ### The addition of the processor -/

theorem ne_zero_and_0x80 (v : UInt8) : (v &&& 0x80 != 0) = v.toBitVec.msb := by
  have hbits : ∀ n < 256, (UInt8.ofNat n &&& 0x80 != 0) = (UInt8.ofNat n).toBitVec.msb := by
    decide +kernel
  have hv := hbits v.toNat v.toNat_lt
  rwa [UInt8.ofNat_toNat] at hv

theorem toBitVec_msb (v : UInt8) : v.toBitVec.msb = decide (128 ≤ v.toNat) :=
  BitVec.msb_eq_decide v.toBitVec

/-- Two operands of one sign have given a result of the other. -/
theorem overflow_add (c : Cpu) (v : UInt8) :
    (c.add v).status.overflow = (c.a.toBitVec.msb == v.toBitVec.msb &&
      c.a.toBitVec.msb != (c.add v).a.toBitVec.msb) := by
  change (~~~(c.a ^^^ v) &&& (c.a ^^^ (c.add v).a) &&& 0x80 != 0) = _
  rw [ne_zero_and_0x80]
  simp only [UInt8.toBitVec_and, UInt8.toBitVec_not, UInt8.toBitVec_xor, BitVec.msb_and,
    BitVec.msb_not, BitVec.msb_xor]
  cases c.a.toBitVec.msb <;> cases v.toBitVec.msb <;> cases (c.add v).a.toBitVec.msb <;> rfl

/-- **The sum of two bytes and the carry is exact**, with the carry as its ninth bit. -/
theorem isSum_add (c : Cpu) (v : UInt8) :
    IsSum [c.a] [v] c.status.carry [(c.add v).a] (c.add v).status := by
  have ha := c.a.toNat_lt
  have hv := v.toNat_lt
  have hc := c.status.carry.toNat_lt
  have hresult : (c.add v).a.toNat = (c.a.toNat + v.toNat + c.status.carry.toNat) % 256 :=
    UInt8.toNat_ofNat'
  have hcarry : (c.add v).status.carry =
      decide (c.a.toNat + v.toNat + c.status.carry.toNat > 0xFF) := rfl
  refine ⟨rfl, ?_, ?_, ?_⟩
  · simp only [unsigned_singleton, List.length_singleton, Nat.pow_one]
    exact hresult
  · simp only [unsigned_singleton, List.length_singleton, Nat.pow_one, hcarry, decide_eq_true_eq]
    omega
  · rw [overflow_add, toBitVec_msb, toBitVec_msb, toBitVec_msb, hresult]
    simp only [List.length_singleton, signed_singleton, InRange, Bool.and_eq_true, beq_iff_eq,
      bne_iff_ne, ne_eq, decide_eq_decide]
    split <;> split <;> omega

end Nes.Cpu

namespace Nes.Machine

open Cpu

variable {β : Type} [Bus β]

/-! ### Programs that add and subtract -/

/-- The bus answers the opcodes and operands of these instructions, two bytes each, as the processor
comes to them. -/
def Fetches : Machine β → List (UInt8 × UInt8) → Prop
  | _, [] => True
  | m, (opcode, operand) :: rest =>
    (Bus.read m.bus m.cpu.pc).1 = opcode ∧
      (Bus.read (Bus.read m.bus m.cpu.pc).2 (m.cpu.pc + 1)).1 = operand ∧ m.step.2.Fetches rest

/-- Loads each byte of one number and combines it with the byte of another number, by an operation
with an immediate operand. -/
def columns (opcode : UInt8) (pairs : List (UInt8 × UInt8)) : List (UInt8 × UInt8) :=
  pairs.flatMap fun pair => [(0xA9, pair.1), (opcode, pair.2)]

/-- The accumulator after every second instruction. -/
def results (m : Machine β) : Nat → List UInt8
  | 0 => []
  | n + 1 => (m.steps 2).cpu.a :: (m.steps 2).results n

variable {m : Machine β} {opcode v : UInt8} {op : Mnemonic} {cycles : Nat}

theorem step_immediate {f : Cpu → UInt8 → Cpu} (hgoes : m.cpu.halted = false)
    (hopcode : (Bus.read m.bus m.cpu.pc).1 = opcode)
    (hoperand : (Bus.read (Bus.read m.bus m.cpu.pc).2 (m.cpu.pc + 1)).1 = v)
    (hform : Instruction.ofOpcode opcode = ⟨op, .immediate, cycles⟩) (hop : op.action = .read f) :
    m.step.1 = .ok cycles ∧
      m.step.2.cpu = { f { m.cpu with pc := m.cpu.pc + 2 } v with
        cycles := (f { m.cpu with pc := m.cpu.pc + 2 } v).cycles + cycles } := by
  rw [step_eq_execute m hgoes, hopcode, ← hoperand]
  simp only [execute, hform, hop]
  exact ⟨rfl, rfl⟩

/-- A pair of instructions adds a byte, after `g`, to another one. -/
theorem isSum_pair {g : UInt8 → UInt8} {a b : UInt8} {rest : List (UInt8 × UInt8)}
    (hform : Instruction.ofOpcode opcode = ⟨op, .immediate, 2⟩)
    (hop : op.action = .read fun c v => c.add (g v)) (hgoes : m.cpu.halted = false)
    (h : m.Fetches ((0xA9, a) :: (opcode, b) :: rest)) :
    IsSum [a] [g b] m.cpu.status.carry [(m.steps 2).cpu.a] (m.steps 2).cpu.status ∧
      (m.steps 2).cpu.halted = false ∧ m.step.1 = .ok 2 ∧ m.step.2.step.1 = .ok 2 ∧
      (m.steps 2).Fetches rest := by
  obtain ⟨hlda, ha, hopcode, hb, hrest⟩ := h
  obtain ⟨hok, hload⟩ :=
    step_immediate (f := Cpu.setA) hgoes hlda ha
      (show Instruction.ofOpcode 0xA9 = ⟨.lda, .immediate, 2⟩ from rfl) rfl
  have hgoes' : m.step.2.cpu.halted = false := by
    rw [hload]
    exact hgoes
  obtain ⟨hok', hadd⟩ := step_immediate hgoes' hopcode hb hform hop
  have hsum := isSum_add { m.step.2.cpu with pc := m.step.2.cpu.pc + 2 } (g b)
  have hacc : m.step.2.cpu.a = a := by rw [hload]; rfl
  have hcarry : m.step.2.cpu.status.carry = m.cpu.status.carry := by rw [hload]; rfl
  have htwo : m.steps 2 = m.step.2.step.2 := rfl
  rw [htwo]
  refine ⟨?_, ?_, hok, hok', hrest⟩
  · rw [hadd, ← hacc, ← hcarry]
    exact hsum
  · rw [hadd]
    exact hgoes'

/-- The pairs of instructions add the numbers. -/
theorem isSum_columns {g : UInt8 → UInt8} {pairs : List (UInt8 × UInt8)} (hpairs : pairs ≠ [])
    (hform : Instruction.ofOpcode opcode = ⟨op, .immediate, 2⟩)
    (hop : op.action = .read fun c v => c.add (g v)) (hgoes : m.cpu.halted = false)
    (h : m.Fetches (columns opcode pairs)) :
    IsSum (pairs.map Prod.fst) ((pairs.map Prod.snd).map g) m.cpu.status.carry
        (m.results pairs.length) (m.steps (2 * pairs.length)).cpu.status ∧
      ∀ k < 2 * pairs.length, (m.steps k).step.1 = .ok 2 := by
  induction pairs generalizing m with
  | nil => exact absurd rfl hpairs
  | cons pair pairs ih =>
    obtain ⟨hlow, hgoes', hok, hok', hrest⟩ := isSum_pair hform hop hgoes h
    cases pairs with
    | nil =>
      refine ⟨hlow, fun k hk => ?_⟩
      match k with
      | 0 => exact hok
      | 1 => exact hok'
    | cons next pairs =>
      obtain ⟨hhigh, hoks⟩ := ih (List.cons_ne_nil _ _) hgoes' hrest
      refine ⟨hlow.cons hhigh (List.cons_ne_nil _ _) (by simp), fun k hk => ?_⟩
      match k with
      | 0 => exact hok
      | 1 => exact hok'
      | k + 2 =>
        rw [List.length_cons] at hk
        exact hoks k (by omega)

/-! ### The combined operations -/

/-- An operation that replaces a byte in memory reads it, writes what it makes of it, and leaves
the registers that go with it. -/
theorem step_modify {f : Cpu → UInt8 → UInt8 × Cpu} (hgoes : m.cpu.halted = false)
    (hopcode : (Bus.read m.bus m.cpu.pc).1 = opcode)
    (hop : (Instruction.ofOpcode opcode).mnemonic.action = .modify f)
    (hmode : (Instruction.ofOpcode opcode).mode ≠ .accumulator) :
    ∃ before addr v pc cycles,
      m.stepAccesses = before ++ [.read addr v, .write addr (f { m.cpu with pc } v).1] ∧
      m.step.1 = .ok cycles ∧
      m.step.2.cpu = { (f { m.cpu with pc } v).2 with
        cycles := (f { m.cpu with pc } v).2.cycles + cycles } := by
  let r := Operand.resolve (Instruction.ofOpcode opcode).mode m.cpu (m.cpu.pc + 1)
    (Bus.read m.recording.bus m.cpu.pc).2
  have hopcode' : (Bus.read m.recording.bus m.recording.cpu.pc).1 = opcode := hopcode
  rw [stepAccesses, m.step_recording, step_eq_execute m.recording hgoes, hopcode']
  simp only [execute, hop, perform, jump, beq_iff_eq, hmode, ↓reduceIte]
  refine ⟨r.2.accesses.toList, r.1.addr, (Bus.read r.2 r.1.addr).1, _, _, ?_, rfl, rfl⟩
  change (Bus.write (Bus.read r.2 r.1.addr).2 r.1.addr _).accesses.toList = _
  rw [Recorder.toList_write, Recorder.toList_read, List.append_assoc]
  rfl

/-- The combined operations work on memory. -/
theorem mode_ne_of_parts (hop : (Instruction.ofOpcode opcode).mnemonic = op)
    (hparts : op.parts.isSome = true) : (Instruction.ofOpcode opcode).mode ≠ .accumulator := by
  refine Instruction.parts_table _ (Array.getElem_mem _) ?_
  rw [hop, hparts]

theorem toNat_rotateRight (v : UInt8) (carry : Bool) :
    (v >>> 1 ||| (if carry then 0x80 else 0)).toNat = v.toNat / 2 + 128 * carry.toNat ∧
      (v &&& 0x01 != 0) = (v.toNat % 2 == 1) := by
  have hbits : ∀ n < 256, ∀ carry : Bool,
      (UInt8.ofNat n >>> 1 ||| (if carry then 0x80 else 0)).toNat =
          (UInt8.ofNat n).toNat / 2 + 128 * carry.toNat ∧
        (UInt8.ofNat n &&& 0x01 != 0) = ((UInt8.ofNat n).toNat % 2 == 1) := by
    decide +kernel
  have hv := hbits v.toNat v.toNat_lt carry
  rwa [UInt8.ofNat_toNat] at hv

/-- A `RRA` rotates a byte to the right through the carry and adds it with the bit moved out. -/
theorem isSum_rra (hgoes : m.cpu.halted = false)
    (hop : (Instruction.ofOpcode (Bus.read m.bus m.cpu.pc).1).mnemonic = .rra) :
    ∃ before addr v r cycles,
      m.stepAccesses = before ++ [.read addr v, .write addr r] ∧ m.step.1 = .ok cycles ∧
      r.toNat = v.toNat / 2 + 128 * m.cpu.status.carry.toNat ∧
      IsSum [m.cpu.a] [r] (v.toNat % 2 == 1) [m.step.2.cpu.a] m.step.2.cpu.status := by
  obtain ⟨before, addr, v, pc, cycles, haccesses, hok, hcpu⟩ :=
    step_modify hgoes rfl (congrArg Mnemonic.action hop) (mode_ne_of_parts hop rfl)
  obtain ⟨hrotated, hout⟩ := toNat_rotateRight v m.cpu.status.carry
  refine ⟨before, addr, v, _, cycles, haccesses, hok, hrotated, ?_⟩
  rw [hcpu, ← hout]
  exact isSum_add ({ m.cpu with pc }.shiftRight m.cpu.status.carry v).2 _

/-- An `ISC` counts a byte up and subtracts it. -/
theorem isDifference_isc (hgoes : m.cpu.halted = false)
    (hop : (Instruction.ofOpcode (Bus.read m.bus m.cpu.pc).1).mnemonic = .isc) :
    ∃ before addr v cycles,
      m.stepAccesses = before ++ [.read addr v, .write addr (v + 1)] ∧ m.step.1 = .ok cycles ∧
      IsDifference [m.cpu.a] [v + 1] m.cpu.status.carry [m.step.2.cpu.a] m.step.2.cpu.status := by
  obtain ⟨before, addr, v, pc, cycles, haccesses, hok, hcpu⟩ :=
    step_modify hgoes rfl (congrArg Mnemonic.action hop) (mode_ne_of_parts hop rfl)
  refine ⟨before, addr, v, cycles, haccesses, hok, ?_⟩
  rw [hcpu]
  exact (isSum_add { m.cpu with pc } (~~~(v + 1))).isDifference (List.cons_ne_nil _ _) rfl

/-- **Addition and subtraction of numbers of any length are exact.**  A running processor that loads
each byte of one number and adds the byte of the other, from the lowest on, has calculated their sum
with the carry that was there before; if it subtracts, their difference.  What it has collected has
the length of the numbers, and the carry and overflow flags say whether the exact result fits it, as
an unsigned and as a signed number.  The same holds for the one byte that a `RRA` adds after
rotating it, and that an `ISC` subtracts after counting it up. -/
theorem columns_exact (m : Machine β) (hgoes : m.cpu.halted = false) :
    (∀ pairs : List (UInt8 × UInt8), pairs ≠ [] → m.Fetches (columns 0x69 pairs) →
      IsSum (pairs.map Prod.fst) (pairs.map Prod.snd) m.cpu.status.carry
          (m.results pairs.length) (m.steps (2 * pairs.length)).cpu.status ∧
        ∀ k < 2 * pairs.length, (m.steps k).step.1 = .ok 2) ∧
    (∀ pairs : List (UInt8 × UInt8), pairs ≠ [] → m.Fetches (columns 0xE9 pairs) →
      IsDifference (pairs.map Prod.fst) (pairs.map Prod.snd) m.cpu.status.carry
          (m.results pairs.length) (m.steps (2 * pairs.length)).cpu.status ∧
        ∀ k < 2 * pairs.length, (m.steps k).step.1 = .ok 2) ∧
    ((Instruction.ofOpcode (Bus.read m.bus m.cpu.pc).1).mnemonic = .rra →
      ∃ before addr v r cycles,
        m.stepAccesses = before ++ [.read addr v, .write addr r] ∧ m.step.1 = .ok cycles ∧
        r.toNat = v.toNat / 2 + 128 * m.cpu.status.carry.toNat ∧
        IsSum [m.cpu.a] [r] (v.toNat % 2 == 1) [m.step.2.cpu.a] m.step.2.cpu.status) ∧
    ((Instruction.ofOpcode (Bus.read m.bus m.cpu.pc).1).mnemonic = .isc →
      ∃ before addr v cycles,
        m.stepAccesses = before ++ [.read addr v, .write addr (v + 1)] ∧ m.step.1 = .ok cycles ∧
        IsDifference [m.cpu.a] [v + 1] m.cpu.status.carry [m.step.2.cpu.a]
          m.step.2.cpu.status) := by
  refine ⟨?adc, ?sbc, isSum_rra hgoes, isDifference_isc hgoes⟩
  case adc =>
    intro pairs hpairs h
    have hsum := isSum_columns (g := id) hpairs
      (show Instruction.ofOpcode 0x69 = ⟨.adc, .immediate, 2⟩ from rfl) rfl hgoes h
    rwa [List.map_id] at hsum
  case sbc =>
    intro pairs hpairs h
    have hne : pairs.map Prod.fst ≠ [] := fun hnil => hpairs (List.map_eq_nil_iff.1 hnil)
    obtain ⟨hsum, hoks⟩ :=
      isSum_columns (g := (~~~·)) hpairs
        (show Instruction.ofOpcode 0xE9 = ⟨.sbc, .immediate, 2⟩ from rfl) rfl hgoes h
    exact ⟨hsum.isDifference hne (by simp), hoks⟩

/-- The sum `$7FFF + $0001` is `$8000`, which is no sum of signed numbers of two bytes. -/
theorem columns_exact_word :
    let m : Machine Memory := ⟨{}, Memory.zero.setList 0 [0xA9, 0xFF, 0x69, 0x01, 0xA9, 0x7F, 0x69]⟩
    IsSum [0xFF, 0x7F] [0x01, 0x00] false [0x00, 0x80] (m.steps 4).cpu.status ∧
      (m.steps 4).cpu.status.carry = false ∧ (m.steps 4).cpu.status.overflow = true := by
  intro m
  have hfetches : m.Fetches (columns 0x69 [(0xFF, 0x01), (0x7F, 0x00)]) :=
    ⟨rfl, rfl, rfl, rfl, rfl, rfl, rfl, rfl, trivial⟩
  exact ⟨((columns_exact m rfl).1 _ (by decide) hfetches).1, rfl, rfl⟩

end Nes.Machine
