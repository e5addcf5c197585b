import Nes.Proofs.Checked
import Nes.Board.Basic

/-!
# Boards in words

Everything a board computes to find a byte or to keep its registers, with arithmetic that can stop
and with reads and writes that stop outside an array: the numbers of banks, the sums that make an
index, the counters.
-/

namespace Nes.Board

open Checked

/-! ### Banks -/

/-- `bankIndex` in words of 64 bits. -/
def bankIndex? (bank size : Nat) (addr : UInt16) (length : Nat) : Option Nat := do
  let count ← div length size
  let shown ← mod bank (max count 1)
  let start ← mul 64 shown size
  let mask ← sub size 1
  let index ← add 64 start (addr.toNat &&& mask)
  mod index length

/-- The byte of a chip of `length` bytes that an offset shows, without banks. -/
def plainIndex? (addr base length : Nat) : Option Nat := do
  let offset ← sub addr base
  mod offset length

/-- The bank in one of the four windows of 8 KiB: two banks that are selected, the first of which
changes places with the last but one, and the last. -/
def windowBank? (first second : Nat) (swapped : Bool) (prgSize : Nat) (addr : UInt16) :
    Option Nat := do
  let count ← div prgSize 0x2000
  let last ← sub (max count 1) 1
  let offset ← sub addr.toNat 0x8000
  match offset / 0x2000, swapped with
    | 0, false | 2, true => some first
    | 0, true | 2, false => some (max count 1 - 2)
    | 1, _ => some second
    | _, _ => some last

/-! ### Chips -/

/-- `Mmc1.prgBank`, which ends with a sum. -/
def Mmc1.prgBank? (s : Mmc1) (prgSize : Nat) (addr : UInt16) : Option Nat :=
  word 64 (s.prgBank prgSize addr)

/-- `LineCounter.clock` with a counter of eight bits. -/
def LineCounter.clock? (c : LineCounter) : Option LineCounter := do
  let c ←
    if c.counter == 0 || c.reload then some { c with counter := c.latch, reload := false }
    else do
      let counter ← sub c.counter.toNat 1
      some { c with counter := .ofNat counter }
  return if c.counter == 0 && c.enabled then { c with pending := true } else c

/-- `Mmc3.write` with an array of eight registers. -/
def Mmc3.write? (s : Mmc3) (addr : UInt16) (v : UInt8) : Option Mmc3 :=
  match (addr >>> 13 &&& 3).toNat, addr &&& 1 == 0 with
  | 0, false =>
    let r := s.select.toNat % 8
    if h : r < 8 then some { s with regs := s.regs.set r v } else none
  | _, _ => some (s.write addr v)

/-- `Mmc3.chrBank` with an array of eight registers. -/
def Mmc3.chrBank? (s : Mmc3) (addr : UInt16) : Option Nat :=
  let slot := addr >>> 10 &&& 7
  let slot := if s.select &&& 0x80 != 0 then slot ^^^ 4 else slot
  match slot.toNat with
  | 0 => do
    let bank ← s.regs[0]?
    some (bank &&& 0xFE).toNat
  | 1 => do
    let bank ← s.regs[0]?
    some (bank ||| 0x01).toNat
  | 2 => do
    let bank ← s.regs[1]?
    some (bank &&& 0xFE).toNat
  | 3 => do
    let bank ← s.regs[1]?
    some (bank ||| 0x01).toNat
  | n => do
    let r ← sub n 2
    let bank ← s.regs[r]?
    some bank.toNat

/-- `CycleCounter.advance` with a counter of eight bits. -/
def CycleCounter.advance? (c : CycleCounter) : Option CycleCounter :=
  if c.counter == 0xFF then some { c with counter := c.latch, pending := true }
  else do
    let counter ← add 8 c.counter.toNat 1
    some { c with counter := .ofNat counter }

/-- `CycleCounter.clock` with a prescaler that may fall below zero before it starts over. -/
def CycleCounter.clock? (c : CycleCounter) : Option CycleCounter :=
  if !c.enabled then some c
  else if c.cycleMode then c.advance?
  else do
    let left ← signed 16 (c.prescaler - 3)
    if 0 < left then some { c with prescaler := left.toNat }
    else do
      let next ← signed 16 (left + CycleCounter.lineLength)
      CycleCounter.advance? { c with prescaler := next.toNat }

/-- `Vrc.writeChr` with an array of eight banks of 16 bits. -/
def Vrc.writeChr? (s : Vrc) (slot : Nat) (high : Bool) (v : UInt8) : Option Vrc := do
  let bank ← s.chr[slot]?
  let bank ← word 16
    (if high then v.toNat % 32 * 16 + bank % 16 else bank / 16 * 16 + v.toNat % 16)
  if h : slot < 8 then some { s with chr := s.chr.set slot bank } else none

/-- `Vrc.write`, where the pattern windows are told by the number of the register. -/
def Vrc.write? (s : Vrc) (addr : UInt16) (v : UInt8) : Option Vrc :=
  let (low, high) := s.wiring.select addr
  let page := (addr >>> 12).toNat
  if 0xB ≤ page ∧ page ≤ 0xE then do
    let register := page * 0x1000 + high.toNat * 2 + low.toNat
    let offset ← sub register 0xB000
    let pair ← mul 16 (offset / 0x1000) 2
    let slot ← add 16 pair (register / 2 % 2)
    s.writeChr? slot low v
  else some (s.write addr v)

/-- `Vrc.chrBank` with an array of eight banks. -/
def Vrc.chrBank? (s : Vrc) (addr : UInt16) : Option Nat := do
  let bank ← s.chr[addr.toNat / 0x400 % 8]?
  some (if s.isVrc2a then bank / 2 else bank)

namespace Chip

/-- The byte of the program that an address from `$8000` on shows. -/
def prgIndex? (c : Chip) (prgSize : Nat) (addr : UInt16) : Option Nat :=
  match c with
  | nrom | cnRom .. => plainIndex? addr.toNat 0x8000 prgSize
  | mmc1 s => do
    let bank ← s.prgBank? prgSize addr
    bankIndex? bank 0x4000 addr prgSize
  | uxRom bank => do
    let count ← div prgSize 0x4000
    bankIndex? (if addr < 0xC000 then bank.toNat else count - 1) 0x4000 addr prgSize
  | mmc3 s => do
    let first ← s.regs[6]?
    let second ← s.regs[7]?
    let bank ← windowBank? (first &&& 0x3F).toNat (second &&& 0x3F).toNat
      (s.select &&& 0x40 != 0) prgSize addr
    bankIndex? bank 0x2000 addr prgSize
  | vrc s => do
    let bank ← windowBank? (s.prg0 &&& 0x1F).toNat (s.prg1 &&& 0x1F).toNat s.swapped prgSize addr
    bankIndex? bank 0x2000 addr prgSize

/-- The byte of the patterns that an address shows. -/
def chrIndex? (c : Chip) (chrSize : Nat) (addr : UInt16) : Option Nat :=
  match c with
  | nrom | uxRom _ => plainIndex? addr.toNat 0 chrSize
  | cnRom _ bank => bankIndex? bank.toNat 0x2000 addr chrSize
  | mmc1 s => bankIndex? (s.chrBank addr) 0x1000 addr chrSize
  | mmc3 s => do
    let bank ← s.chrBank? addr
    bankIndex? bank 0x400 addr chrSize
  | vrc s => do
    let bank ← s.chrBank? addr
    bankIndex? bank 0x400 addr chrSize

/-- `Chip.write`; a pattern latch is as wide as the number of banks asks for. -/
def write? (c : Chip) (chrSize : Nat) (addr : UInt16) (v : UInt8) : Option Chip :=
  match c with
  | cnRom mask _ => do
    let count ← div chrSize 0x2000
    let power ← word 64 (powerFrom (max count 1))
    let latch ← sub power 1
    some (cnRom mask (v &&& .ofNat latch))
  | mmc3 s => do
    let s ← s.write? addr v
    some (mmc3 s)
  | vrc s => do
    let s ← s.write? addr v
    some (vrc s)
  | c => some (c.write addr v)

end Chip

/-! ### Boards -/

/-- `prgRead` with arrays that are read inside their bounds. -/
def prgRead? (b : Board) (addr : UInt16) : Option UInt8 :=
  if addr ≥ 0x8000 then do
    let i ← b.chip.prgIndex? b.prgRom.size addr
    b.prgRom[i]?
  else if addr ≥ 0x6000 && b.chip.ramReadable then do
    let i ← sub addr.toNat 0x6000
    b.prgRam[i]?
  else some 0

/-- `prgWrite` with arrays that are written inside their bounds. -/
def prgWrite? (b : Board) (addr : UInt16) (v : UInt8) : Option Board :=
  if addr ≥ 0x8000 then do
    let chip ← b.chip.write? b.chr.size addr v
    some { b with chip }
  else if addr ≥ 0x6000 && b.chip.ramWritable then do
    let i ← sub addr.toNat 0x6000
    if h : i < 0x2000 then some { b with prgRam := b.prgRam.set i v } else none
  else some b

/-- `chrRead` with an array that is read inside its bounds. -/
def chrRead? (b : Board) (addr : UInt16) : Option UInt8 := do
  let i ← b.chip.chrIndex? b.chr.size addr
  b.chr[i]?

/-- `chrWrite` with an array that is written inside its bounds. -/
def chrWrite? (b : Board) (addr : UInt16) (v : UInt8) : Option Board :=
  if b.chrWritable then do
    let i ← b.chip.chrIndex? b.chr.size addr
    if h : i < b.chr.size then some { b with chr := b.chr.set i v } else none
  else some b

/-- `clockLine` with a counter of eight bits. -/
def clockLine? (b : Board) : Option Board :=
  match b.chip with
  | .mmc3 s => do
    let lines ← s.lines.clock?
    some { b with chip := .mmc3 { s with lines } }
  | _ => some b

/-- `clockCycle` with a counter of eight bits and a prescaler of 16. -/
def clockCycle? (b : Board) : Option Board :=
  match b.chip with
  | .vrc s => do
    let irq ← s.irq.clock?
    some { b with chip := .vrc { s with irq } }
  | _ => some b

/-! ### No stop -/

theorem max_count_pos (n : Nat) : 0 < max n 1 :=
  Nat.lt_of_lt_of_le Nat.one_pos (Nat.le_max_right ..)

/-- An index into a bank fits a word because the bank lies in the chip. -/
theorem bankIndex?_eq (bank : Nat) {k : Nat} (hk : k < 64) (addr : UInt16) {length : Nat}
    (hpos : 0 < length) (hlt : length < 2 ^ 64) :
    bankIndex? bank (2 ^ k) addr length = some (bankIndex bank (2 ^ k) addr length) := by
  have hsize : 0 < 2 ^ k := Nat.two_pow_pos k
  have hword : 2 ^ k < 2 ^ 64 := Nat.pow_lt_pow_right (by decide) hk
  have hoffset : addr.toNat &&& (2 ^ k - 1) < 2 ^ k := by
    rw [Nat.and_two_pow_sub_one_eq_mod]
    exact Nat.mod_lt _ hsize
  have hshown : bank % max (length / 2 ^ k) 1 * 2 ^ k + 2 ^ k ≤ max length (2 ^ k) := by
    have hbank : bank % max (length / 2 ^ k) 1 + 1 ≤ max (length / 2 ^ k) 1 :=
      Nat.mod_lt _ (max_count_pos _)
    calc bank % max (length / 2 ^ k) 1 * 2 ^ k + 2 ^ k
        = (bank % max (length / 2 ^ k) 1 + 1) * 2 ^ k := (Nat.succ_mul ..).symm
      _ ≤ max (length / 2 ^ k) 1 * 2 ^ k := Nat.mul_le_mul_right _ hbank
      _ ≤ max length (2 ^ k) := by
        rcases Nat.le_total (length / 2 ^ k) 1 with h | h
        · rw [Nat.max_eq_right h, Nat.one_mul]
          exact Nat.le_max_right ..
        · rw [Nat.max_eq_left h]
          exact Nat.le_trans (Nat.div_mul_le_self ..) (Nat.le_max_left ..)
  have hmax : max length (2 ^ k) < 2 ^ 64 := Nat.max_lt.2 ⟨hlt, hword⟩
  unfold bankIndex? bankIndex bankCount
  refine bind_eq (div_eq (Nat.ne_of_gt hsize)) ?_
  refine bind_eq (mod_eq (Nat.ne_of_gt (max_count_pos _))) ?_
  refine bind_eq (mul_eq (by omega)) ?_
  refine bind_eq (sub_eq hsize) ?_
  refine bind_eq (add_eq (by omega)) ?_
  rw [mod_eq (Nat.ne_of_gt hpos), Nat.and_two_pow_sub_one_eq_mod]

theorem plainIndex?_eq {addr base length : Nat} (hbase : base ≤ addr) (hpos : 0 < length) :
    plainIndex? addr base length = some ((addr - base) % length) :=
  bind_eq (sub_eq hbase) (mod_eq (Nat.ne_of_gt hpos))

/-- The lower half of the addresses from `$8000` on is what their last 15 bits tell. -/
theorem bankIndex_zero {k : Nat} (addr : UInt16) (length : Nat) :
    bankIndex 0 (2 ^ k) addr length = addr.toNat % 2 ^ k % length := by
  rw [bankIndex, Nat.zero_mod, Nat.zero_mul, Nat.zero_add]

theorem page_eq {addr : UInt16} (h : 0x8000 ≤ addr.toNat) :
    (addr >>> 13 &&& 3).toNat = (addr.toNat - 0x8000) / 0x2000 := by
  have := addr.toNat_lt
  rw [UInt16.toNat_and, UInt16.toNat_shiftRight]
  have h13 : addr.toNat >>> ((13 : UInt16).toNat % 16) = addr.toNat / 2 ^ 13 :=
    Nat.shiftRight_eq_div_pow _ 13
  have h3 (n : Nat) : n &&& (3 : UInt16).toNat = n % 2 ^ 2 := Nat.and_two_pow_sub_one_eq_mod n 2
  rw [h13, h3]
  omega

theorem Mmc3.windowBank?_eq (s : Mmc3) (prgSize : Nat) {addr : UInt16} (h : 0x8000 ≤ addr.toNat) :
    windowBank? (s.regs[6] &&& 0x3F).toNat (s.regs[7] &&& 0x3F).toNat (s.select &&& 0x40 != 0)
      prgSize addr = some (s.prgBank prgSize addr) := by
  refine bind_eq (div_eq (by decide)) <| bind_eq (sub_eq (max_count_pos _)) <|
    bind_eq (sub_eq h) ?_
  rw [Mmc3.prgBank, page_eq h]
  generalize (addr.toNat - 0x8000) / 0x2000 = page
  rcases page with _ | _ | _ | page <;> cases s.select &&& 0x40 != 0 <;> rfl

theorem Vrc.windowBank?_eq (s : Vrc) (prgSize : Nat) {addr : UInt16} (h : 0x8000 ≤ addr.toNat) :
    windowBank? (s.prg0 &&& 0x1F).toNat (s.prg1 &&& 0x1F).toNat s.swapped prgSize addr =
      some (s.prgBank prgSize addr) := by
  refine bind_eq (div_eq (by decide)) <| bind_eq (sub_eq (max_count_pos _)) <|
    bind_eq (sub_eq h) ?_
  rw [Vrc.prgBank, page_eq h]
  generalize (addr.toNat - 0x8000) / 0x2000 = page
  rcases page with _ | _ | _ | page <;> cases s.swapped <;> rfl

theorem Mmc1.prgBank?_eq (s : Mmc1) (prgSize : Nat) (addr : UInt16) :
    s.prgBank? prgSize addr = some (s.prgBank prgSize addr) := by
  have hbank := (s.prg &&& 0x0F).toNat_lt
  have heven : (s.prg &&& 0x0F).toNat / 2 * 2 < 2 ^ 9 := by omega
  have hodd : (s.prg &&& 0x0F).toNat / 2 * 2 + 1 < 2 ^ 9 := by omega
  have hhalf : (if prgSize > 256 * 1024 then (s.chr0 &&& 0x10).toNat else 0) < 2 ^ 8 := by
    have := (s.chr0 &&& 0x10).toNat_lt
    split <;> omega
  refine word_eq (Nat.lt_of_lt_of_le (Nat.add_lt_add hhalf (?_ : _ < 2 ^ 9)) (by decide))
  split
  · exact heven
  · exact heven
  · exact hodd
  · exact hodd
  all_goals omega

theorem Mmc3.slot_lt (s : Mmc3) (addr : UInt16) :
    (if s.select &&& 0x80 != 0 then (addr >>> 10 &&& 7) ^^^ 4
      else addr >>> 10 &&& 7).toNat < 8 := by
  have hslot : (addr >>> 10 &&& 7).toNat < 8 := by
    rw [UInt16.toNat_and]
    exact Nat.lt_succ_of_le Nat.and_le_right
  split
  · rw [UInt16.toNat_xor]
    exact Nat.xor_lt_two_pow (n := 3) hslot (by decide)
  · exact hslot

theorem Mmc3.chrBank?_eq (s : Mmc3) (addr : UInt16) : s.chrBank? addr = some (s.chrBank addr) := by
  have hslot := s.slot_lt addr
  unfold Mmc3.chrBank? Mmc3.chrBank
  dsimp only
  generalize (if s.select &&& 0x80 != 0 then (addr >>> 10 &&& 7) ^^^ 4
    else addr >>> 10 &&& 7).toNat = slot at hslot
  match slot, hslot with
  | 0, _ | 1, _ | 2, _ | 3, _ => rfl
  | 4, _ | 5, _ | 6, _ | 7, _ => rfl

theorem Vrc.chrBank?_eq (s : Vrc) (addr : UInt16) : s.chrBank? addr = some (s.chrBank addr) :=
  bind_eq (Vector.getElem?_eq_getElem (Nat.mod_lt _ (by decide))) rfl

theorem LineCounter.clock?_eq (c : LineCounter) : c.clock? = some c.clock := by
  unfold LineCounter.clock? LineCounter.clock
  by_cases hzero : (c.counter == 0 || c.reload) = true
  · simp only [hzero, ↓reduceIte]
    rfl
  · have hpos : 1 ≤ c.counter.toNat := by
      refine Nat.pos_of_ne_zero fun h => hzero ?_
      have hcounter : c.counter = 0 := UInt8.toNat_inj.1 h
      rw [hcounter]
      rfl
    have hsub : UInt8.ofNat (c.counter.toNat - 1) = c.counter - 1 := by
      rw [UInt8.ofNat_sub hpos, UInt8.ofNat_toNat]
      rfl
    simp only [hzero, Bool.false_eq_true, ↓reduceIte]
    refine bind_eq (sub_eq hpos) ?_
    rw [hsub]
    rfl

theorem CycleCounter.advance?_eq (c : CycleCounter) : c.advance? = some c.advance := by
  unfold CycleCounter.advance? CycleCounter.advance
  by_cases hlast : (c.counter == 0xFF) = true
  · simp only [hlast, ↓reduceIte]
  · have hlt : c.counter.toNat + 1 < 2 ^ 8 := by
      have := c.counter.toNat_lt
      have hne : c.counter.toNat ≠ 255 := fun h => hlast (beq_iff_eq.2 (UInt8.toNat_inj.1 h))
      omega
    have hadd : UInt8.ofNat (c.counter.toNat + 1) = c.counter + 1 := by
      rw [UInt8.ofNat_add, UInt8.ofNat_toNat]
      rfl
    simp only [hlast, Bool.false_eq_true, ↓reduceIte]
    exact bind_eq (add_eq hlt) (by rw [hadd])

theorem CycleCounter.clock?_eq {c : CycleCounter} (h : c.prescaler ≤ CycleCounter.lineLength) :
    c.clock? = some c.clock := by
  unfold CycleCounter.lineLength at h
  unfold CycleCounter.clock? CycleCounter.clock
  cases c.enabled with
  | false => rfl
  | true =>
    cases c.cycleMode with
    | true => exact c.advance?_eq
    | false =>
      simp only [Bool.not_true, Bool.false_eq_true, ↓reduceIte]
      refine bind_eq (signed_eq (by omega) (by omega)) ?_
      by_cases hleft : c.prescaler ≤ 3
      · have hneg : ¬ (0 : Int) < c.prescaler - 3 := by omega
        simp only [hleft, hneg, ↓reduceIte, CycleCounter.lineLength]
        refine bind_eq (signed_eq (by omega) (by omega)) ?_
        rw [CycleCounter.advance?_eq]
        have hnext : ((c.prescaler : Int) - 3 + (341 : Nat)).toNat = c.prescaler + 341 - 3 := by
          omega
        rw [hnext]
      · have hpos : (0 : Int) < c.prescaler - 3 := by omega
        have hnext : ((c.prescaler : Int) - 3).toNat = c.prescaler - 3 := by omega
        simp only [hleft, hpos, ↓reduceIte, hnext]

theorem Mmc3.write?_eq (s : Mmc3) (addr : UInt16) (v : UInt8) :
    s.write? addr v = some (s.write addr v) := by
  unfold Mmc3.write? Mmc3.write
  split
  · next hpage heven =>
    rw [hpage, heven]
    exact dif_pos (Nat.mod_lt _ (by decide))
  · rfl

theorem Vrc.writeChr?_eq {s : Vrc} {slot : Nat} (hslot : slot < 8) (high : Bool) (v : UInt8)
    (hbank : s.chr[slot] < 512) :
    s.writeChr? slot high v = some (s.writeChr ⟨slot, hslot⟩ high v) := by
  have hv := v.toNat_lt
  refine bind_eq (Vector.getElem?_eq_getElem hslot) <| bind_eq (word_eq ?_) (dif_pos hslot)
  split <;> omega

/-- What the registers keep to. -/
structure Vrc.Fits (s : Vrc) : Prop where
  /-- The prescaler does not exceed a line. -/
  prescaler : s.irq.prescaler ≤ CycleCounter.lineLength
  /-- A pattern bank has nine bits. -/
  chr : ∀ (i : Nat) (hi : i < 8), s.chr[i] < 512

theorem Vrc.write?_eq {s : Vrc} (h : s.Fits) (addr : UInt16) (v : UInt8) :
    s.write? addr v = some (s.write addr v) := by
  unfold Vrc.write? Vrc.write
  obtain ⟨low, high⟩ := s.wiring.select addr
  dsimp only
  generalize (addr >>> 12).toNat = page
  by_cases hpage : 0xB ≤ page ∧ page ≤ 0xE
  · rw [if_pos hpage]
    have hlow := low.toNat_lt
    have hhigh := high.toNat_lt
    have hslot : (page * 0x1000 + high.toNat * 2 + low.toNat - 0xB000) / 0x1000 * 2 +
        (page * 0x1000 + high.toNat * 2 + low.toNat) / 2 % 2 = (page - 0xB) * 2 + high.toNat := by
      omega
    refine bind_eq (sub_eq (by omega)) <| bind_eq (mul_eq (by omega)) <|
      bind_eq (add_eq (by omega)) ?_
    rw [hslot]
    have hpages : page = 0xB ∨ page = 0xC ∨ page = 0xD ∨ page = 0xE := by omega
    rcases hpages with rfl | rfl | rfl | rfl <;> cases high <;>
      exact Vrc.writeChr?_eq (by decide) low v (h.chr _ (by decide))
  · rw [if_neg hpage]

namespace Chip

theorem prgIndex?_eq (c : Chip) {prgSize : Nat} (hpos : 0 < prgSize) (hlt : prgSize < 2 ^ 64)
    {addr : UInt16} (h : 0x8000 ≤ addr.toNat) :
    c.prgIndex? prgSize addr =
      some (bankIndex (c.prgBank prgSize addr) c.prgWindow addr prgSize) := by
  have hplain : plainIndex? addr.toNat 0x8000 prgSize =
      some (bankIndex 0 0x8000 addr prgSize) := by
    have := addr.toNat_lt
    have hmod : addr.toNat % 0x8000 = addr.toNat - 0x8000 := by omega
    have hzero : bankIndex 0 0x8000 addr prgSize = addr.toNat % 0x8000 % prgSize :=
      bankIndex_zero (k := 15) addr prgSize
    rw [plainIndex?_eq h hpos, hzero, hmod]
  cases c with
  | nrom => exact hplain
  | cnRom mask bank => exact hplain
  | mmc1 s => exact bind_eq (s.prgBank?_eq ..) (bankIndex?_eq _ (k := 14) (by decide) _ hpos hlt)
  | uxRom bank =>
    exact bind_eq (div_eq (by decide)) (bankIndex?_eq _ (k := 14) (by decide) _ hpos hlt)
  | mmc3 s =>
    exact bind_eq rfl (bind_eq rfl (bind_eq (s.windowBank?_eq _ h)
      (bankIndex?_eq _ (k := 13) (by decide) _ hpos hlt)))
  | vrc s =>
    exact bind_eq (s.windowBank?_eq _ h) (bankIndex?_eq _ (k := 13) (by decide) _ hpos hlt)

theorem chrIndex?_eq (c : Chip) {chrSize : Nat} (hpos : 0 < chrSize) (hlt : chrSize < 2 ^ 64)
    (addr : UInt16) :
    c.chrIndex? chrSize addr = some (bankIndex (c.chrBank addr) c.chrWindow addr chrSize) := by
  have hplain : plainIndex? addr.toNat 0 chrSize = some (bankIndex 0 0x10000 addr chrSize) := by
    have hzero : bankIndex 0 0x10000 addr chrSize = addr.toNat % 0x10000 % chrSize :=
      bankIndex_zero (k := 16) addr chrSize
    rw [plainIndex?_eq (Nat.zero_le _) hpos, hzero, Nat.mod_eq_of_lt addr.toNat_lt, Nat.sub_zero]
  cases c with
  | nrom => exact hplain
  | uxRom bank => exact hplain
  | cnRom mask bank => exact bankIndex?_eq _ (k := 13) (by decide) _ hpos hlt
  | mmc1 s => exact bankIndex?_eq _ (k := 12) (by decide) _ hpos hlt
  | mmc3 s => exact bind_eq (s.chrBank?_eq _) (bankIndex?_eq _ (k := 10) (by decide) _ hpos hlt)
  | vrc s => exact bind_eq (s.chrBank?_eq _) (bankIndex?_eq _ (k := 10) (by decide) _ hpos hlt)

/-- What the registers of a chip keep to; a latch is as wide as the patterns need. -/
def Fits (chrSize : Nat) : Chip → Prop
  | cnRom mask _ => mask = .ofNat (powerFrom (bankCount 0x2000 chrSize) - 1)
  | vrc s => s.Fits
  | _ => True

theorem write?_eq {c : Chip} {chrSize : Nat} (hlt : chrSize < 2 ^ 64) (h : c.Fits chrSize)
    (addr : UInt16) (v : UInt8) : c.write? chrSize addr v = some (c.write addr v) := by
  cases c with
  | nrom => rfl
  | mmc1 s => rfl
  | uxRom bank => rfl
  | cnRom mask bank =>
    have hcount := max_count_pos (chrSize / 0x2000)
    have hpower : powerFrom (max (chrSize / 0x2000) 1) < 2 ^ 64 :=
      Nat.lt_of_lt_of_le (powerFrom_lt hcount) (by omega)
    have hpos : 1 ≤ powerFrom (max (chrSize / 0x2000) 1) :=
      Nat.le_trans hcount (le_powerFrom hcount)
    refine bind_eq (div_eq (by decide)) <| bind_eq (word_eq hpower) <| bind_eq (sub_eq hpos) ?_
    subst h
    rfl
  | mmc3 s => exact bind_eq (s.write?_eq addr v) rfl
  | vrc s => exact bind_eq (Vrc.write?_eq h addr v) rfl

end Chip

end Nes.Board
