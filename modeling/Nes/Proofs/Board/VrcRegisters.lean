import Nes.Proofs.Board.Chips
import Mathlib.Data.Fintype.Basic
import Mathlib.Data.List.Induction
import Mathlib.Data.Nat.Bitwise
import Mathlib.Tactic.FinCases

/-!
# The registers of a VRC

A board joins two or three of its address lines to each of the two select lines of its chip
(`Wiring.lines`), so that an address stands for one of four registers of its page
(`Wiring.register`).  A write depends on the number of the register and on nothing else of the
address (`Vrc.write_congr`).

Sixteen of the registers hold the parts of the pattern banks, two for each window
(`chrRegister`).  A write to one of them replaces its part and keeps all else
(`Vrc.write_chrRegister`, `Vrc.write_withChr`); so writes to different ones change places
(`Vrc.write_comm`), and after every history the banks are made of what has been written to the two
registers of each window last (`Vrc.chr_run`).  `chr_registers` puts this together for the boards
that have such a chip.
-/

namespace Nes.Board

namespace Wiring

/-- The address lines that a board joins to the lower and to the higher select line. -/
def lines : Wiring → List Nat × List Nat
  | vrc4ac => ([1, 6], [2, 7])
  | vrc2a => ([1], [0])
  | vrc2bOr4ef => ([0, 2], [1, 3])
  | vrc2cOr4bd => ([1, 3], [0, 2])

/-- One of the given lines of an address is high. -/
def high (lines : List Nat) (addr : UInt16) : Bool := lines.any addr.toNat.testBit

/-- The number of the register behind an address: its page, and the levels of the select lines as
the last two bits. -/
def register (w : Wiring) (addr : UInt16) : Nat :=
  addr.toNat / 0x1000 * 0x1000 + (high w.lines.2 addr).toNat * 2 + (high w.lines.1 addr).toNat

/-- The numbers of the boards with such a chip, and how they are wired. -/
def boards : List (Nat × Wiring) :=
  [(21, vrc4ac), (22, vrc2a), (23, vrc2bOr4ef), (25, vrc2cOr4bd)]

/-- What a history has written to a register last, zero if nothing since the last reset. -/
def written (w : Wiring) (register : Nat) (ops : List Op) : UInt8 :=
  ops.foldl (fun data o =>
    match o with
    | .prgWrite addr v => if w.register addr = register then v else data
    | .reset => 0
    | .chrWrite .. | .clockLine | .clockCycle => data) 0

/-! ### The select lines -/

/-- The number with ones in the given places. -/
def mask (lines : List Nat) : Nat := lines.foldr (fun i m => 2 ^ i ||| m) 0

theorem and_mask_eq_zero (n : Nat) (lines : List Nat) :
    n &&& mask lines = 0 ↔ lines.any n.testBit = false := by
  induction lines with
  | nil => simp [mask]
  | cons i lines ih =>
    have hbit : n &&& 2 ^ i = 0 ↔ n.testBit i = false := by
      rw [Nat.and_two_pow]
      cases n.testBit i <;> simp
    have hmask : mask (i :: lines) = 2 ^ i ||| mask lines := rfl
    rw [hmask, Nat.and_or_distrib_left, Nat.or_eq_zero_iff, hbit, ih, List.any_cons,
      Bool.or_eq_false_iff]

theorem and_ne_zero (addr : UInt16) {m : UInt16} {lines : List Nat} (h : m.toNat = mask lines) :
    (addr &&& m != 0) = high lines addr := by
  have hzero : addr &&& m = 0 ↔ high lines addr = false := by
    rw [← UInt16.toNat_inj, UInt16.toNat_and, h]
    exact and_mask_eq_zero addr.toNat lines
  cases hhigh : high lines addr with
  | false => rw [bne_eq_false_iff_eq, hzero, hhigh]
  | true => rw [bne_iff_ne, ne_eq, hzero, hhigh, Bool.not_eq_false]

/-- The chip sees what the lines say. -/
theorem select_eq (w : Wiring) (addr : UInt16) :
    w.select addr = (high w.lines.1 addr, high w.lines.2 addr) := by
  cases w <;> exact Prod.ext (and_ne_zero addr (by decide)) (and_ne_zero addr (by decide))

theorem toNat_page (addr : UInt16) : (addr >>> 12).toNat = addr.toNat / 0x1000 := by
  rw [UInt16.toNat_shiftRight]
  exact Nat.shiftRight_eq_div_pow ..

/-- A register has a page and two lines, and its number tells them. -/
theorem register_eq_iff {w : Wiring} {addr : UInt16} {page : Nat} {low up : Bool} :
    w.register addr = page * 0x1000 + up.toNat * 2 + low.toNat ↔
      addr.toNat / 0x1000 = page ∧ high w.lines.1 addr = low ∧ high w.lines.2 addr = up := by
  unfold register
  generalize high w.lines.1 addr = low', high w.lines.2 addr = up'
  constructor
  · intro h
    cases low' <;> cases up' <;> cases low <;> cases up <;>
      simp only [Bool.toNat_false, Bool.toNat_true] at h <;>
      first | exact ⟨by omega, rfl, rfl⟩ | omega
  · rintro ⟨rfl, rfl, rfl⟩
    rfl

theorem register_bounds (w : Wiring) (addr : UInt16) :
    addr.toNat / 0x1000 * 0x1000 ≤ w.register addr ∧
      w.register addr ≤ addr.toNat / 0x1000 * 0x1000 + 3 := by
  have hup := (high w.lines.2 addr).toNat_lt
  have hlow := (high w.lines.1 addr).toNat_lt
  unfold register
  omega

theorem written_concat (w : Wiring) (register : Nat) (ops : List Op) (o : Op) :
    w.written register (ops ++ [o]) =
      match o with
      | .prgWrite addr v => if w.register addr = register then v else w.written register ops
      | .reset => 0
      | .chrWrite .. | .clockLine | .clockCycle => w.written register ops := by
  rw [written, List.foldl_append]
  cases o <;> rfl

end Wiring

/-- The register with the low part of the bank of a pattern window.  The one with the high part
comes after it. -/
def chrRegister (k : Fin 8) : Nat := 0xB000 + k.val / 2 * 0x1000 + k.val % 2 * 2

theorem chrRegister_inj {j k : Fin 8} {p q : Bool}
    (h : chrRegister j + p.toNat = chrRegister k + q.toNat) : j = k ∧ p = q := by
  unfold chrRegister at h
  cases p <;> cases q <;> simp only [Bool.toNat_false, Bool.toNat_true] at h <;>
    first | exact ⟨Fin.ext (by omega), rfl⟩ | omega

namespace Vrc

variable {s : Vrc} {addr addr' : UInt16}

/-- **A write depends on the register alone.** -/
theorem write_congr (h : s.wiring.register addr = s.wiring.register addr') (v : UInt8) :
    s.write addr v = s.write addr' v := by
  obtain ⟨hpage, hlow, hup⟩ := Wiring.register_eq_iff.1 h
  unfold write
  rw [Wiring.select_eq, Wiring.select_eq, Wiring.toNat_page, Wiring.toNat_page, hpage, hlow, hup]

/-! ### Pattern banks -/

/-- A bank with one of its parts replaced. -/
def merge (bank : Nat) (up : Bool) (v : UInt8) : Nat :=
  if up then v.toNat % 32 * 16 + bank % 16 else bank / 16 * 16 + v.toNat % 16

theorem merge_comm (bank : Nat) {p q : Bool} (h : p ≠ q) (v v' : UInt8) :
    merge (merge bank p v) q v' = merge (merge bank q v') p v := by
  unfold merge
  cases p <;> cases q <;> simp only [Bool.false_eq_true, ↓reduceIte]
  · exact absurd rfl h
  · omega
  · omega
  · exact absurd rfl h

theorem writeChr_eq (s : Vrc) (k : Fin 8) (up : Bool) (v : UInt8) :
    s.writeChr k up v = { s with chr := s.chr.set k (merge (s.chr.get k) up v) k.isLt } := rfl

theorem get_writeChr (s : Vrc) (j k : Fin 8) (up : Bool) (v : UInt8) :
    (s.writeChr j up v).chr.get k = if j = k then merge (s.chr.get k) up v else s.chr.get k := by
  change (s.chr.set j (merge (s.chr.get j) up v) j.isLt)[k.val] = _
  rw [Vector.getElem_set]
  simp only [Fin.val_inj]
  split
  · next h => rw [h]
  · rfl

theorem writeChr_comm (s : Vrc) {j k : Fin 8} {p q : Bool} (h : ¬(j = k ∧ p = q)) (v v' : UInt8) :
    (s.writeChr j p v).writeChr k q v' = (s.writeChr k q v').writeChr j p v := by
  have hchr : ((s.writeChr j p v).writeChr k q v').chr =
      ((s.writeChr k q v').writeChr j p v).chr := by
    refine Vector.ext fun i hi => ?_
    change (Vrc.chr _).get ⟨i, hi⟩ = (Vrc.chr _).get ⟨i, hi⟩
    simp only [get_writeChr]
    split_ifs with hk hj hj
    · exact merge_comm _ (fun hpq => h ⟨hj.trans hk.symm, hpq⟩) v v'
    · rfl
    · rfl
    · rfl
  exact congrArg (fun chr => ({ s with chr } : Vrc)) hchr

/-- A write to a register of a window replaces a part of its bank. -/
theorem write_chrRegister {k : Fin 8} {up : Bool}
    (h : s.wiring.register addr = chrRegister k + up.toNat) (v : UInt8) :
    s.write addr v = s.writeChr k up v := by
  have hregister : s.wiring.register addr =
      (0xB + k.val / 2) * 0x1000 + (decide (k.val % 2 = 1)).toNat * 2 + up.toNat := by
    rw [h, chrRegister]
    rcases Nat.mod_two_eq_zero_or_one k.val with hk | hk <;> rw [hk] <;> simp <;> omega
  obtain ⟨hpage, hlow, hup⟩ := Wiring.register_eq_iff.1 hregister
  unfold write
  rw [Wiring.select_eq, Wiring.toNat_page, hpage, hlow, hup]
  fin_cases k <;> rfl

/-- The registers between those of the first window and those of the last belong to a window. -/
theorem exists_chrRegister (h : 0xB000 ≤ s.wiring.register addr)
    (h' : s.wiring.register addr ≤ 0xE003) :
    ∃ k up, s.wiring.register addr = chrRegister k + Bool.toNat up := by
  unfold Wiring.register at h h' ⊢
  have hup := (Wiring.high s.wiring.lines.2 addr).toNat_lt
  have hlow := (Wiring.high s.wiring.lines.1 addr).toNat_lt
  refine ⟨⟨(addr.toNat / 0x1000 - 0xB) * 2 + (Wiring.high s.wiring.lines.2 addr).toNat, by omega⟩,
    Wiring.high s.wiring.lines.1 addr, ?_⟩
  simp only [chrRegister]
  omega

/-- Every other write neither sees the banks nor changes them. -/
theorem write_withChr (h : ∀ k up, s.wiring.register addr ≠ chrRegister k + Bool.toNat up)
    (v : UInt8) (chr : Vector Nat 8) :
    ({ s with chr } : Vrc).write addr v = { s.write addr v with chr } := by
  have hpage : ¬(0xB ≤ addr.toNat / 0x1000 ∧ addr.toNat / 0x1000 ≤ 0xE) := by
    rintro ⟨hle, hge⟩
    have hbounds := s.wiring.register_bounds addr
    have hfirst : 0xB000 ≤ s.wiring.register addr := by omega
    have hlast : s.wiring.register addr ≤ 0xE003 := by omega
    obtain ⟨k, up, hk⟩ := exists_chrRegister hfirst hlast
    exact h k up hk
  rw [← Wiring.toNat_page] at hpage
  obtain ⟨wiring, prg0, prg1, swapped, chr', mirroring, irq⟩ := s
  unfold write
  generalize wiring.select addr = select
  obtain ⟨low, up⟩ := select
  dsimp only
  split
  · rfl
  · cases wiring <;> cases low <;> cases up <;> rfl
  · rfl
  · next hB => exact absurd hB (by omega)
  · next hC => exact absurd hC (by omega)
  · next hD => exact absurd hD (by omega)
  · next hE => exact absurd hE (by omega)
  · cases wiring <;> rfl

theorem chr_write (h : ∀ k up, s.wiring.register addr ≠ chrRegister k + Bool.toNat up)
    (v : UInt8) : (s.write addr v).chr = s.chr := by
  have hchr := congrArg Vrc.chr (write_withChr h v s.chr)
  exact hchr

/-- **Writes to different registers change places,** if one of them belongs to a window. -/
theorem write_comm {k : Fin 8} {up : Bool} (h : s.wiring.register addr = chrRegister k + up.toNat)
    (hne : s.wiring.register addr' ≠ s.wiring.register addr) (v v' : UInt8) :
    (s.write addr v).write addr' v' = (s.write addr' v').write addr v := by
  have hwiring : (s.write addr' v').wiring = s.wiring := s.wiring_write addr' v'
  have h' : (s.write addr' v').wiring.register addr = chrRegister k + up.toNat := hwiring ▸ h
  rw [write_chrRegister h, write_chrRegister h']
  by_cases hwindow : ∃ j p, s.wiring.register addr' = chrRegister j + Bool.toNat p
  · obtain ⟨j, p, hj⟩ := hwindow
    have hj' : (s.writeChr k up v).wiring.register addr' = chrRegister j + p.toNat := hj
    rw [write_chrRegister hj, write_chrRegister hj']
    refine writeChr_comm s (fun heq => hne ?_) v v'
    rw [h, hj, heq.1, heq.2]
  · simp only [not_exists] at hwindow
    rw [writeChr_eq, writeChr_eq, chr_write hwindow]
    exact write_withChr hwindow v' _

/-! ### A history -/

/-- The bank of a pattern window whose registers have received `up` and `low`. -/
def bankOf (up low : UInt8) : Nat := (up &&& 0x1F).toNat * 16 + (low &&& 0x0F).toNat

theorem merge_bankOf (up low v : UInt8) :
    merge (bankOf up low) true v = bankOf v low ∧ merge (bankOf up low) false v = bankOf up v := by
  have h5 (x : UInt8) : (x &&& 0x1F).toNat = x.toNat % 32 :=
    (UInt8.toNat_and ..).trans (Nat.and_two_pow_sub_one_eq_mod x.toNat 5)
  have h4 (x : UInt8) : (x &&& 0x0F).toNat = x.toNat % 16 :=
    (UInt8.toNat_and ..).trans (Nat.and_two_pow_sub_one_eq_mod x.toNat 4)
  simp only [merge, bankOf, h5, h4, Bool.false_eq_true, ↓reduceIte]
  omega

theorem get_replicate_bankOf (k : Fin 8) : (Vector.replicate 8 0).get k = bankOf 0 0 :=
  Vector.getElem_replicate k.isLt

/-- The banks are made of what a history has written to their registers last. -/
def Banked (s : Vrc) (ops : List Op) : Prop :=
  ∀ k : Fin 8, s.chr.get k =
    bankOf (s.wiring.written (chrRegister k + 1) ops) (s.wiring.written (chrRegister k) ops)

theorem Banked.write {ops : List Op} (h : s.Banked ops) (addr : UInt16) (v : UInt8) :
    (s.write addr v).Banked (ops ++ [.prgWrite addr v]) := by
  intro k
  rw [wiring_write, Wiring.written_concat, Wiring.written_concat]
  dsimp only
  by_cases hwindow : ∃ j p, s.wiring.register addr = chrRegister j + Bool.toNat p
  · obtain ⟨j, p, haddr⟩ := hwindow
    rw [write_chrRegister haddr, get_writeChr, h k, haddr]
    -- The register is that of the low part, that of the high part, or one of another window.
    have hlow : chrRegister j + p.toNat = chrRegister k ↔ j = k ∧ p = false :=
      ⟨fun heq => chrRegister_inj (q := false) heq, fun heq => by rw [heq.1, heq.2]; rfl⟩
    have hup : chrRegister j + p.toNat = chrRegister k + 1 ↔ j = k ∧ p = true :=
      ⟨fun heq => chrRegister_inj (q := true) heq, fun heq => by rw [heq.1, heq.2]; rfl⟩
    rw [if_congr hlow rfl rfl, if_congr hup rfl rfl]
    obtain ⟨hmergeUp, hmergeLow⟩ := merge_bankOf (s.wiring.written (chrRegister k + 1) ops)
      (s.wiring.written (chrRegister k) ops) v
    by_cases hj : j = k
    · cases p with
      | true => simpa only [hj, and_false, and_self, Bool.true_eq_false, ↓reduceIte] using hmergeUp
      | false =>
        simpa only [hj, and_false, and_self, Bool.false_eq_true, ↓reduceIte] using hmergeLow
    · simp only [hj, false_and, ↓reduceIte]
  · simp only [not_exists] at hwindow
    have hup : s.wiring.register addr ≠ chrRegister k + 1 := hwindow k true
    have hlow : s.wiring.register addr ≠ chrRegister k := hwindow k false
    rw [chr_write hwindow, h k, if_neg hup, if_neg hlow]

/-- **After every history, the banks are made of what has been written to their registers last.** -/
theorem chr_run {b : Board} {s₀ : Vrc} (hb : b.chip = .vrc s₀) (h : s₀.Banked []) (ops : List Op) :
    ∃ s, (b.run ops).chip = .vrc s ∧ s.wiring = s₀.wiring ∧ s.Banked ops := by
  induction ops using List.reverseRecOn with
  | nil => exact ⟨s₀, hb, rfl, h⟩
  | append_singleton ops o ih =>
    obtain ⟨s, hchip, hwiring, hbanked⟩ := ih
    rw [chip_run_concat, hchip]
    cases o with
    | prgWrite addr v =>
      by_cases haddr : addr ≥ 0x8000
      · exact ⟨s.write addr v, if_pos haddr, (s.wiring_write addr v).trans hwiring,
          hbanked.write addr v⟩
      · refine ⟨s, if_neg haddr, hwiring, fun k => ?_⟩
        have hbounds := s.wiring.register_bounds addr
        have hlow := Nat.not_le.1 (high_iff.not.1 haddr)
        rw [Wiring.written_concat, Wiring.written_concat, hbanked k]
        dsimp only
        rw [if_neg (by unfold chrRegister; omega), if_neg (by unfold chrRegister; omega)]
    | reset =>
      refine ⟨s.reset, rfl, hwiring, fun k => ?_⟩
      rw [Wiring.written_concat, Wiring.written_concat]
      exact get_replicate_bankOf k
    | _ =>
      refine ⟨_, rfl, hwiring, fun k => ?_⟩
      rw [Wiring.written_concat, Wiring.written_concat]
      exact hbanked k

end Vrc

/-! ### Boards -/

theorem chipFor_of_mem_boards {cart : Cartridge} {w : Wiring}
    (h : (cart.mapperId, w) ∈ Wiring.boards) :
    chipFor cart = some (.vrc { wiring := w, mirroring := cart.mirroring }) ∧
      (cart.mapperId = 22 ↔ w = .vrc2a) := by
  simp only [Wiring.boards, List.mem_cons, List.not_mem_nil, Prod.mk.injEq, or_false] at h
  rcases h with ⟨hid, rfl⟩ | ⟨hid, rfl⟩ | ⟨hid, rfl⟩ | ⟨hid, rfl⟩ <;> simp [chipFor, hid]

theorem prgWrite_of_high (b : Board) {addr : UInt16} (h : addr ≥ 0x8000) (v : UInt8) :
    b.prgWrite addr v = { b with chip := b.chip.write addr v } :=
  if_pos h

/-- **The pattern banks of a board with a VRC are what has been written to their registers last.**
The patterns are seen through windows of 1 KiB.  After every history, the bank of each is made of
what its two registers have received since the last reset, without the lowest bit on the board
numbered 22.

A write to one of these registers changes places with a write to any other register, and two
addresses of one page that show the chip the same select lines are one register, whatever has
happened before. -/
theorem chr_registers {cart : Cartridge} {w : Wiring}
    (h : (cart.mapperId, w) ∈ Wiring.boards) :
    ∃ b, ofCartridge cart = some b ∧
      (∀ ops : List Op,
        (∃ s, (b.run ops).chip = .vrc s ∧ s.wiring = w) ∧
        (b.run ops).chip.chrWindow = 0x400 ∧
        ∀ (k : Fin 8) (addr : UInt16), addr.toNat / 0x400 = k.val →
          let bank :=
            Vrc.bankOf (w.written (chrRegister k + 1) ops) (w.written (chrRegister k) ops)
          (b.run ops).chip.chrBank addr = if cart.mapperId = 22 then bank / 2 else bank) ∧
      ∀ (b' : Board) (s : Vrc), b'.chip = .vrc s → s.wiring = w →
        ∀ (addr addr' : UInt16) (v v' : UInt8), addr ≥ 0x8000 → addr' ≥ 0x8000 →
          (0xB000 ≤ w.register addr → w.register addr ≤ 0xE003 →
            w.register addr' ≠ w.register addr →
            (b'.prgWrite addr v).prgWrite addr' v' = (b'.prgWrite addr' v').prgWrite addr v) ∧
          (addr.toNat / 0x1000 = addr'.toNat / 0x1000 →
            Wiring.high w.lines.1 addr = Wiring.high w.lines.1 addr' →
            Wiring.high w.lines.2 addr = Wiring.high w.lines.2 addr' →
            b'.prgWrite addr v = b'.prgWrite addr' v) := by
  obtain ⟨hchip, hvrc2a⟩ := chipFor_of_mem_boards h
  have hstart : Vrc.Banked { wiring := w, mirroring := cart.mirroring } [] :=
    Vrc.get_replicate_bankOf
  obtain ⟨b, hb, hbchip, -⟩ := exists_board hchip
  refine ⟨b, hb, fun ops => ?_, ?_⟩
  · obtain ⟨s, hs, hwiring, hbanked⟩ := Vrc.chr_run hbchip hstart ops
    change s.wiring = w at hwiring
    refine ⟨⟨s, hs, hwiring⟩, by rw [hs]; rfl, fun k addr haddr => ?_⟩
    have hslot : (⟨addr.toNat / 0x400 % 8, Nat.mod_lt _ (by decide)⟩ : Fin 8) = k :=
      Fin.ext (by rw [haddr]; exact Nat.mod_eq_of_lt k.isLt)
    have hbank := hbanked k
    change s.chr[k] = _ at hbank
    rw [hwiring] at hbank
    rw [hs]
    simp only [Chip.chrBank, Vrc.chrBank, hslot, hbank, Vrc.isVrc2a, hwiring, beq_iff_eq, hvrc2a]
  · intro b' s hs hwiring addr addr' v v' haddr haddr'
    simp only [prgWrite_of_high _ haddr, prgWrite_of_high _ haddr', hs, Chip.write]
    refine ⟨fun hfirst hlast hne => ?_, fun hpage hlow hup => ?_⟩
    · subst hwiring
      obtain ⟨k, up, hk⟩ := Vrc.exists_chrRegister hfirst hlast
      rw [Vrc.write_comm hk hne v v']
    · subst hwiring
      rw [Vrc.write_congr (Wiring.register_eq_iff.2 ⟨hpage, hlow, hup⟩) v]

/-- The high part of the first bank is written through the second address line of its select
line, and the program windows are swapped in between. -/
theorem chr_registers_first :
    let cart : Cartridge :=
      { prgRom := #[0xEA], chr := #[0], chrIsRam := true, trainer := none
        mirroring := .horizontal, mapperId := 23, submapper := 0, tvSystem := .ntsc
        dialect := .iNes, battery := false, prgRamSize := 0, miscRom := #[] }
    ∃ b, ofCartridge cart = some b ∧
      (b.run [.reset, .prgWrite 0xB004 0x33, .prgWrite 0x9002 2,
        .prgWrite 0xB000 0x25]).chip.chrBank 0x03FF = 0x135 ∧
      (b.prgWrite 0xB004 0x33).prgWrite 0xB000 0x25 =
        (b.prgWrite 0xB000 0x25).prgWrite 0xB004 0x33 ∧
      b.prgWrite 0xB001 0x33 = b.prgWrite 0xB004 0x33 := by
  intro cart
  obtain ⟨b, hb, hrun, hwrites⟩ := @chr_registers cart .vrc2bOr4ef (by decide)
  obtain ⟨s, hs, hwiring⟩ := (hrun []).1
  refine ⟨b, hb, (hrun _).2.2 0 0x03FF (by decide), ?_, ?_⟩
  · exact (hwrites b s hs hwiring 0xB004 0xB000 0x33 0x25 (by decide) (by decide)).1
      (by decide) (by decide) (by decide)
  · exact (hwrites b s hs hwiring 0xB001 0xB004 0x33 0 (by decide) (by decide)).2
      (by decide) (by decide) (by decide)

end Nes.Board
