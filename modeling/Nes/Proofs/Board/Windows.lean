import Nes.Proofs.Board.VrcRegisters

/-!
# The windows through which a board shows its program

A processor sees the program from `$8000` on through windows of the size of a bank.  If the program
is a whole number of banks, then what an address shows is the offset of the address in the bank that
the window selects (`bankIndex_of_mul`, `getElem?_prgRead`).

The MMC3 and the VRC have four windows of 8 KiB each, of which a bit of a register swaps the first
and the third (`Chip.Swaps`).  A board on which that bit alone has changed has exchanged these two,
offset by offset, and left the others as they were (`exchanged_of_swaps`); on the MMC3 another bit
does the same to the two halves of the patterns (`exchanged_select`).  The last window is out of
reach of every register, and so are the vectors in it (`fixed_windows`).
-/

namespace Nes.Board

/-! ### Banks and offsets -/

/-- In a chip that is a whole number of banks, an address shows its offset in the selected one. -/
theorem bankIndex_of_mul (bank : Nat) {size count : Nat} (hsize : 0 < size) (hcount : 0 < count)
    (addr : UInt16) :
    bankIndex bank size addr (count * size) = bank % count * size + addr.toNat % size := by
  have hbanks : bankCount size (count * size) = count := by
    rw [bankCount, Nat.mul_div_cancel count hsize]
    exact Nat.max_eq_left hcount
  have hlast : (bank % count + 1) * size ≤ count * size :=
    Nat.mul_le_mul_right size (Nat.mod_lt bank hcount)
  have hoffset : addr.toNat % size < size := Nat.mod_lt _ hsize
  rw [Nat.succ_mul] at hlast
  rw [bankIndex, hbanks]
  exact Nat.mod_eq_of_lt (by omega)

section

variable {b b' : Board} {addr addr' : UInt16}

/-- A read from the program finds a byte. -/
theorem getElem?_prgRead (h : 0x8000 ≤ addr.toNat) (hprg : 0 < b.prgRom.size) :
    b.prgRom[b.prgIndex addr]? = some (b.prgRead addr) := by
  rw [prgRead, if_pos (high_iff.2 h)]
  exact Cartridge.getElem?_of_lt (b.prgIndex_lt addr hprg)

/-- Two addresses with the same offset in windows that select the same bank show the same byte. -/
theorem prgRead_congr (h : 0x8000 ≤ addr.toNat) (h' : 0x8000 ≤ addr'.toNat)
    (hrom : b'.prgRom = b.prgRom) (hwindow : b'.chip.prgWindow = b.chip.prgWindow)
    (hbank : b'.chip.prgBank b.prgRom.size addr' = b.chip.prgBank b.prgRom.size addr)
    (hoffset : addr'.toNat % b.chip.prgWindow = addr.toNat % b.chip.prgWindow) :
    b'.prgRead addr' = b.prgRead addr := by
  rw [prgRead, prgRead, if_pos (high_iff.2 h), if_pos (high_iff.2 h'),
    prgIndex, prgIndex, bankIndex, bankIndex, hrom, hwindow, hbank, hoffset]

end

/-- An offset does not lead out of its window of 8 KiB. -/
theorem add_offset_window {base offset : UInt16} {i : Nat} (hi : i < 4)
    (hbase : base.toNat = 0x8000 + i * 0x2000) (h : offset < 0x2000) :
    0x8000 ≤ (base + offset).toNat ∧ ((base + offset).toNat - 0x8000) / 0x2000 = i ∧
      (base + offset).toNat % 0x2000 = offset.toNat := by
  have hoffset : offset.toNat < 0x2000 := UInt16.lt_iff_toNat_lt.1 h
  have haddr : (base + offset).toNat = 0x8000 + i * 0x2000 + offset.toNat := by
    rw [UInt16.toNat_add, hbase]
    exact Nat.mod_eq_of_lt (by omega)
  rw [haddr]
  omega

theorem add_offset_last {offset : UInt16} (h : offset < 0x2000) :
    0x8000 ≤ (0xE000 + offset).toNat ∧ ((0xE000 + offset).toNat - 0x8000) / 0x2000 = 3 ∧
      (0xE000 + offset).toNat % 0x2000 = offset.toNat :=
  add_offset_window (by decide) (by decide) h

/-! ### Windows that change places -/

/-- The windows at `$8000` and `$C000` have changed places, and the other two have stayed. -/
structure Exchanged (b b' : Board) : Prop where
  /-- What was at `$C000` is at `$8000`. -/
  first : ∀ offset < (0x2000 : UInt16), b'.prgRead (0x8000 + offset) = b.prgRead (0xC000 + offset)
  /-- What was at `$A000` is there. -/
  second : ∀ offset < (0x2000 : UInt16), b'.prgRead (0xA000 + offset) = b.prgRead (0xA000 + offset)
  /-- What was at `$8000` is at `$C000`. -/
  third : ∀ offset < (0x2000 : UInt16), b'.prgRead (0xC000 + offset) = b.prgRead (0x8000 + offset)
  /-- What was at `$E000` is there. -/
  last : ∀ offset < (0x2000 : UInt16), b'.prgRead (0xE000 + offset) = b.prgRead (0xE000 + offset)

/-- The bank in a window of 8 KiB: two banks that are selected, the first of which changes places
with the last but one, and the last. -/
def windowBank (first second : Nat) (swapped : Bool) (count : Nat) : Nat → Nat
  | 0 => if swapped then count - 2 else first
  | 1 => second
  | 2 => if swapped then first else count - 2
  | _ => count - 1

/-- The chip has four windows of 8 KiB, the first of which changes places with the third. -/
structure Chip.Swaps (c : Chip) (first second : Nat) (swapped : Bool) : Prop where
  /-- The windows have 8 KiB. -/
  window : c.prgWindow = 0x2000
  /-- The banks in them. -/
  bank : ∀ size {addr : UInt16}, 0x8000 ≤ addr.toNat →
    c.prgBank size addr =
      windowBank first second swapped (bankCount 0x2000 size) ((addr.toNat - 0x8000) / 0x2000)

theorem Mmc3.swaps (s : Mmc3) :
    (Chip.mmc3 s).Swaps (s.regs.get 6 &&& 0x3F).toNat (s.regs.get 7 &&& 0x3F).toNat
      (s.select &&& 0x40 != 0) := by
  refine ⟨rfl, fun size addr h => ?_⟩
  rw [Chip.prgBank, prgBank, page_eq h]
  generalize (addr.toNat - 0x8000) / 0x2000 = window
  rcases window with _ | _ | _ | window <;> cases s.select &&& 0x40 != 0 <;> rfl

theorem Vrc.swaps (s : Vrc) :
    (Chip.vrc s).Swaps (s.prg0 &&& 0x1F).toNat (s.prg1 &&& 0x1F).toNat s.swapped := by
  refine ⟨rfl, fun size addr h => ?_⟩
  rw [Chip.prgBank, prgBank, page_eq h]
  generalize (addr.toNat - 0x8000) / 0x2000 = window
  rcases window with _ | _ | _ | window <;> cases s.swapped <;> rfl

/-- The number of the window that shows what a window has shown before. -/
def exchange : Nat → Nat
  | 0 => 2
  | 2 => 0
  | n => n

theorem windowBank_not (first second : Nat) (swapped : Bool) (count window : Nat) :
    windowBank first second (!swapped) count (exchange window) =
      windowBank first second swapped count window := by
  rcases window with _ | _ | _ | window <;> cases swapped <;> rfl

/-- **A board on which only the bit has changed has exchanged two windows.** -/
theorem exchanged_of_swaps {b b' : Board} {first second : Nat} {swapped : Bool}
    (hrom : b'.prgRom = b.prgRom) (h : b.chip.Swaps first second swapped)
    (h' : b'.chip.Swaps first second (!swapped)) : Exchanged b b' := by
  have hread {base base' : UInt16} {i j : Nat} (hi : i < 4) (hj : j < 4)
      (hbase : base.toNat = 0x8000 + i * 0x2000) (hbase' : base'.toNat = 0x8000 + j * 0x2000)
      (hbank : ∀ count, windowBank first second (!swapped) count j =
        windowBank first second swapped count i) (offset : UInt16) (hoffset : offset < 0x2000) :
      b'.prgRead (base' + offset) = b.prgRead (base + offset) := by
    obtain ⟨hhigh, hwindow, hmod⟩ := add_offset_window hi hbase hoffset
    obtain ⟨hhigh', hwindow', hmod'⟩ := add_offset_window hj hbase' hoffset
    refine prgRead_congr hhigh hhigh' hrom (by rw [h'.window, h.window]) ?_ ?_
    · rw [h.bank _ hhigh, h'.bank _ hhigh', hwindow, hwindow']
      exact hbank _
    · rw [h.window, hmod, hmod']
  have hbank (count i : Nat) := windowBank_not first second swapped count i
  constructor
  · exact hread (by decide) (by decide) (by decide) (by decide) fun count => hbank count 2
  · exact hread (by decide) (by decide) (by decide) (by decide) fun count => hbank count 1
  · exact hread (by decide) (by decide) (by decide) (by decide) fun count => hbank count 0
  · exact hread (by decide) (by decide) (by decide) (by decide) fun count => hbank count 3

/-! ### The last window -/

/-- The board shows the last 8 KiB of its program from `$E000` on. -/
def ShowsLast (b : Board) : Prop :=
  ∀ offset < (0x2000 : UInt16),
    b.prgRom[b.prgRom.size - 0x2000 + offset.toNat]? = some (b.prgRead (0xE000 + offset))

theorem showsLast_of_index {b : Board} (hprg : 0 < b.prgRom.size)
    (h : ∀ addr : UInt16, 0x8000 ≤ addr.toNat → (addr.toNat - 0x8000) / 0x2000 = 3 →
      b.prgIndex addr = b.prgRom.size - 0x2000 + addr.toNat % 0x2000) : ShowsLast b := by
  intro offset hoffset
  obtain ⟨hhigh, hwindow, hmod⟩ := add_offset_last hoffset
  rw [← hmod, ← h _ hhigh hwindow]
  exact getElem?_prgRead hhigh hprg

theorem showsLast_of_swaps {b : Board} {first second : Nat} {swapped : Bool}
    (h : b.chip.Swaps first second swapped) {count : Nat} (hcount : 0 < count)
    (hsize : b.prgRom.size = count * 0x2000) : ShowsLast b := by
  refine showsLast_of_index (by omega) fun addr hhigh hwindow => ?_
  have hbanks : bankCount 0x2000 b.prgRom.size = count := by
    rw [hsize, bankCount, Nat.mul_div_cancel count (by decide)]
    exact Nat.max_eq_left hcount
  have hlast : windowBank first second swapped count 3 = count - 1 := rfl
  rw [prgIndex, h.bank _ hhigh, h.window, hwindow, hbanks, hlast, hsize,
    bankIndex_of_mul _ (by decide) hcount, Nat.mod_eq_of_lt (by omega)]
  omega

theorem showsLast_uxRom {b : Board} {bank : UInt8} (h : b.chip = .uxRom bank) {count : Nat}
    (hcount : 0 < count) (hsize : b.prgRom.size = count * 0x4000) : ShowsLast b := by
  refine showsLast_of_index (by omega) fun addr hhigh hwindow => ?_
  have hupper : ¬addr < 0xC000 := fun hlower => by
    have := UInt16.lt_iff_toNat_lt.1 hlower
    change addr.toNat < 0xC000 at this
    omega
  have hbank : b.prgRom.size / 0x4000 - 1 = count - 1 := by
    rw [hsize, Nat.mul_div_cancel count (by decide)]
  rw [prgIndex, h, Chip.prgBank, if_neg hupper, Chip.prgWindow, hbank, hsize,
    bankIndex_of_mul _ (by decide) hcount, Nat.mod_eq_of_lt (by omega)]
  omega

/-- Boards that select banks of the program, but for the MMC1, show the end of it. -/
theorem showsLast_run {b : Board}
    (h : (∃ bank, b.chip = .uxRom bank) ∨ (∃ s, b.chip = .mmc3 s) ∨ ∃ s, b.chip = .vrc s)
    {count : Nat} (hcount : 0 < count) (hsize : b.prgRom.size = count * 0x4000) (ops : List Op) :
    (b.run ops).ShowsLast := by
  have hrom : (b.run ops).prgRom.size = count * 0x4000 := (prgRom_run b ops).symm ▸ hsize
  have hbanks : (b.run ops).prgRom.size = 2 * count * 0x2000 := by rw [hrom]; omega
  rcases h with ⟨bank, h⟩ | ⟨s, h⟩ | ⟨s, h⟩
  · obtain ⟨bank', h'⟩ := exists_uxRom_run ops h
    exact showsLast_uxRom h' hcount hrom
  · obtain ⟨s', h'⟩ := exists_mmc3_run ops h
    exact showsLast_of_swaps (h' ▸ s'.swaps) (Nat.mul_pos Nat.two_pos hcount) hbanks
  · obtain ⟨s', h', -⟩ := exists_vrc_run ops h
    exact showsLast_of_swaps (h' ▸ s'.swaps) (Nat.mul_pos Nat.two_pos hcount) hbanks

/-- Boards that do not select banks of the program show always the same. -/
theorem prgRead_run_of_unbanked {b : Board}
    (h : b.chip = .nrom ∨ ∃ mask bank, b.chip = .cnRom mask bank) (ops : List Op) {addr : UInt16}
    (haddr : 0x8000 ≤ addr.toNat) : (b.run ops).prgRead addr = b.prgRead addr := by
  have hchip : (b.run ops).chip.prgWindow = b.chip.prgWindow ∧
      (b.run ops).chip.prgBank = b.chip.prgBank := by
    rcases h with h | ⟨mask, bank, h⟩
    · rw [chip_run_nrom ops h, h]
      exact ⟨rfl, rfl⟩
    · obtain ⟨bank', h'⟩ := exists_cnRom_run ops h
      rw [h', h]
      exact ⟨rfl, rfl⟩
  exact prgRead_congr haddr haddr (prgRom_run b ops) hchip.1 (by rw [hchip.2]) rfl

/-! ### The halves of the patterns -/

theorem chrRead_congr {b b' : Board} {addr addr' : UInt16} (hchr : b'.chr = b.chr)
    (hwindow : b'.chip.chrWindow = b.chip.chrWindow)
    (hbank : b'.chip.chrBank addr' = b.chip.chrBank addr)
    (hoffset : addr'.toNat % b.chip.chrWindow = addr.toNat % b.chip.chrWindow) :
    b'.chrRead addr' = b.chrRead addr := by
  rw [chrRead, chrRead, chrIndex, chrIndex, bankIndex, bankIndex, hchr, hwindow, hbank, hoffset]

namespace Mmc3

variable {s : Mmc3}

/-- The even registers of the first page are the selector. -/
theorem write_select {addr : UInt16} (hlow : 0x8000 ≤ addr.toNat) (hhigh : addr.toNat < 0xA000)
    (heven : addr.toNat % 2 = 0) (v : UInt8) : s.write addr v = { s with select := v } := by
  have hpage : (addr >>> 13 &&& 3).toNat = 0 := by
    rw [page_eq hlow]
    omega
  rw [write, hpage, even_iff, decide_eq_true heven]
  rfl

theorem slot_xor (addr : UInt16) :
    (addr ^^^ 0x1000) >>> 10 &&& (7 : UInt16) = (addr >>> 10 &&& 7) ^^^ 4 := by
  rw [UInt16.shiftRight_xor, ← UInt16.toNat_inj, UInt16.toNat_and, UInt16.toNat_xor,
    Nat.and_xor_distrib_right]
  rfl

/-- A change of the bit that swaps the halves is as good as a change of the half. -/
theorem chrBank_of_toggled {v : UInt8} (h : (v &&& 0x80 != 0) = !(s.select &&& 0x80 != 0))
    (addr : UInt16) : { s with select := v }.chrBank addr = s.chrBank (addr ^^^ 0x1000) := by
  have hback (slot : UInt16) : slot ^^^ 4 ^^^ 4 = slot := by
    rw [UInt16.xor_assoc, UInt16.xor_self, UInt16.xor_zero]
  unfold chrBank
  dsimp only
  rw [slot_xor, h]
  cases s.select &&& 0x80 != 0 with
  | false => rfl
  | true => rw [hback]; rfl

end Mmc3

theorem xor_mod_window (addr : UInt16) : (addr ^^^ 0x1000).toNat % 0x400 = addr.toNat % 0x400 := by
  rw [UInt16.toNat_xor]
  exact (Nat.xor_mod_two_pow (n := 10)).trans (Nat.xor_zero _)

/-! ### Writes that change a mode bit -/

/-- What a write to the selector of an MMC3 exchanges. -/
theorem exchanged_select {b : Board} {s : Mmc3} (hchip : b.chip = .mmc3 s) {addr : UInt16}
    (hlow : 0x8000 ≤ addr.toNat) (hhigh : addr.toNat < 0xA000) (heven : addr.toNat % 2 = 0)
    (v : UInt8) :
    ((v &&& 0x40 != 0) = !(s.select &&& 0x40 != 0) → Exchanged b (b.prgWrite addr v)) ∧
      ((v &&& 0x80 != 0) = !(s.select &&& 0x80 != 0) → ∀ a : UInt16,
        (b.prgWrite addr v).chrRead a = b.chrRead (a ^^^ 0x1000)) := by
  have hwrite : b.prgWrite addr v = { b with chip := .mmc3 { s with select := v } } := by
    rw [prgWrite_of_high b (high_iff.2 hlow), hchip, Chip.write, Mmc3.write_select hlow hhigh heven]
  rw [hwrite]
  refine ⟨fun hbit => ?_, fun hbit a => ?_⟩
  · have hswaps := Mmc3.swaps { s with select := v }
    dsimp only at hswaps
    rw [hbit] at hswaps
    exact exchanged_of_swaps rfl (hchip ▸ s.swaps) hswaps
  · refine chrRead_congr rfl (by rw [hchip]; rfl) ?_ ?_
    · rw [hchip]
      exact Mmc3.chrBank_of_toggled hbit a
    · rw [hchip]
      exact (xor_mod_window a).symm

/-- What a write to the swap register of a VRC4 exchanges. -/
theorem exchanged_swap {b : Board} {s : Vrc} (hchip : b.chip = .vrc s) (hvrc4 : s.wiring ≠ .vrc2a)
    {addr : UInt16} (haddr : s.wiring.register addr = 0x9002) {v : UInt8}
    (hbit : (v &&& 0x02 != 0) = !s.swapped) : Exchanged b (b.prgWrite addr v) := by
  have hregister : s.wiring.register addr = 9 * 0x1000 + true.toNat * 2 + false.toNat := haddr
  obtain ⟨hpage, hlow, hup⟩ := Wiring.register_eq_iff.1 hregister
  have hhigh : 0x8000 ≤ addr.toNat := by omega
  have hwrite : s.write addr v = { s with swapped := v &&& 0x02 != 0 } := by
    unfold Vrc.write
    rw [Wiring.select_eq, Wiring.toNat_page, hpage, hlow, hup]
    simp [Vrc.isVrc2a, hvrc4]
  rw [prgWrite_of_high b (high_iff.2 hhigh), hchip, Chip.write, hwrite, hbit]
  exact exchanged_of_swaps rfl (hchip ▸ s.swaps) (Vrc.swaps { s with swapped := !s.swapped })

/-- **No history banks the vectors away, and a mode bit swaps two windows.**  On boards whose
program is a whole number of banks of 16 KiB, what is seen from `$E000` on never changes if the
board selects no banks of the program, and is the end of the program if it does by a latch, an MMC3
or a VRC.

After every history, a write to the selector of an MMC3 that changes bit 6 exchanges the windows at
`$8000` and `$C000`, and one that changes bit 7 the halves of the patterns; and a write to register
`$9002` of a VRC4 that changes bit 1 exchanges the same two windows. -/
theorem fixed_windows {cart : Cartridge} {count : Nat} (hcount : 0 < count)
    (hsize : cart.prgRom.size = count * 0x4000)
    (hid : cart.mapperId ∈ [0, 2, 3, 4, 21, 22, 23, 25]) :
    ∃ b, ofCartridge cart = some b ∧ ∀ ops : List Op,
      (b.run ops).prgRom = cart.prgRom ∧
      (cart.mapperId ∈ [0, 3] → ∀ offset < (0x2000 : UInt16),
        (b.run ops).prgRead (0xE000 + offset) = b.prgRead (0xE000 + offset)) ∧
      (cart.mapperId ∈ [2, 4, 21, 22, 23, 25] → (b.run ops).ShowsLast) ∧
      (cart.mapperId = 4 → ∃ s, (b.run ops).chip = .mmc3 s ∧
        ∀ (addr : UInt16) (v : UInt8),
          0x8000 ≤ addr.toNat → addr.toNat < 0xA000 → addr.toNat % 2 = 0 →
          ((v &&& 0x40 != 0) = !(s.select &&& 0x40 != 0) →
            Exchanged (b.run ops) ((b.run ops).prgWrite addr v)) ∧
          ((v &&& 0x80 != 0) = !(s.select &&& 0x80 != 0) → ∀ a : UInt16,
            ((b.run ops).prgWrite addr v).chrRead a = (b.run ops).chrRead (a ^^^ 0x1000))) ∧
      ∀ w, (cart.mapperId, w) ∈ Wiring.boards → w ≠ .vrc2a →
        ∃ s, (b.run ops).chip = .vrc s ∧
          ∀ (addr : UInt16) (v : UInt8), w.register addr = 0x9002 →
            (v &&& 0x02 != 0) = (!s.swapped) →
            Exchanged (b.run ops) ((b.run ops).prgWrite addr v) := by
  obtain ⟨c, hc⟩ : ∃ c, chipFor cart = some c := by
    simp only [List.mem_cons, List.not_mem_nil, or_false] at hid
    rcases hid with h | h | h | h | h | h | h | h <;> simp [chipFor, h]
  obtain ⟨b, hb, hchip, hrom⟩ := exists_board hc
  rw [← hchip] at hc
  refine ⟨b, hb, fun ops =>
    ⟨(prgRom_run b ops).trans hrom, fun h => ?_, fun h => ?_, fun h => ?_, fun w h hvrc4 => ?_⟩⟩
  · have hunbanked : b.chip = .nrom ∨ ∃ mask bank, b.chip = .cnRom mask bank := by
      simp only [List.mem_cons, List.not_mem_nil, or_false] at h
      rcases h with h | h <;> simp [chipFor, h] at hc
      · exact Or.inl hc.symm
      · exact Or.inr ⟨_, _, hc.symm⟩
    intro offset hoffset
    exact prgRead_run_of_unbanked hunbanked ops (add_offset_last hoffset).1
  · refine showsLast_run ?_ hcount (hrom ▸ hsize) ops
    simp only [List.mem_cons, List.not_mem_nil, or_false] at h
    rcases h with h | h | h | h | h | h <;> simp [chipFor, h] at hc
    · exact Or.inl ⟨_, hc.symm⟩
    · exact Or.inr (Or.inl ⟨_, hc.symm⟩)
    all_goals exact Or.inr (Or.inr ⟨_, hc.symm⟩)
  · simp only [chipFor, h, Option.some.injEq] at hc
    obtain ⟨s, hs⟩ := exists_mmc3_run ops hc.symm
    exact ⟨s, hs, fun addr v hlow hhigh heven => exchanged_select hs hlow hhigh heven v⟩
  · rw [(chipFor_of_mem_boards h).1, Option.some.injEq] at hc
    obtain ⟨s, hs, hwiring⟩ := exists_vrc_run ops hc.symm
    exact ⟨s, hs, fun addr v haddr hbit =>
      exchanged_swap hs (hwiring.trans_ne hvrc4) (hwiring ▸ haddr) hbit⟩

/-- A program of two banks of 8 KiB on an MMC3. -/
theorem fixed_windows_mmc3 :
    let cart : Cartridge :=
      { prgRom := .ofFn fun i : Fin 0x4000 => .ofNat (i.val / 0x100)
        chr := #[0], chrIsRam := true, trainer := none
        mirroring := .horizontal, mapperId := 4, submapper := 0, tvSystem := .ntsc
        dialect := .iNes, battery := false, prgRamSize := 0, miscRom := #[] }
    ∃ b, ofCartridge cart = some b ∧
      (b.run [.prgWrite 0x8000 7, .prgWrite 0xE001 3, .clockLine, .prgWrite 0x9FFF 5]).ShowsLast ∧
      Exchanged b (b.prgWrite 0x9FFE 0x46) ∧
      (b.prgWrite 0x8000 0x80).chrRead 0x0123 = b.chrRead 0x1123 := by
  intro cart
  have hsize : cart.prgRom.size = 1 * 0x4000 := by simp only [cart, Array.size_ofFn, Nat.one_mul]
  obtain ⟨b, hb, hrun⟩ := @fixed_windows cart 1 Nat.one_pos hsize (by decide)
  obtain ⟨s, hs, hselect⟩ := (hrun []).2.2.2.1 rfl
  have hpower : s = .powerOn .horizontal := by
    obtain rfl := Option.some.inj hb
    exact (Chip.mmc3.inj hs).symm
  subst hpower
  refine ⟨b, hb, (hrun _).2.2.1 (by decide), ?_, ?_⟩
  · exact (hselect 0x9FFE 0x46 (by decide) (by decide) (by decide)).1 (by decide)
  · exact (hselect 0x8000 0x80 (by decide) (by decide) (by decide)).2 (by decide) 0x0123

end Nes.Board
