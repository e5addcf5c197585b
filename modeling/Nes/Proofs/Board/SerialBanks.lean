import Nes.Proofs.Board.SerialLoad
import Nes.Proofs.Board.Windows
import Mathlib.Tactic.IntervalCases

/-!
# The program windows of an MMC1

The program register of an MMC1 holds what the last group of five bits has loaded into it
(`Serial.lastLoaded`, `Serial.getElem_run`).  With two bits of the control register it selects the
banks in the two windows of 16 KiB (`Mmc1.windows`, `Mmc1.prgBank_eq`), whose numbers wrap at the
number of banks.

One of the modes, in which the chip starts, keeps a bank in the upper window; but that is the last
bank of the program only if the number of banks divides sixteen (`serial_banks`).
-/

namespace Nes.Board

namespace Serial

/-- The register that an operation loads after a history, and with what: the fifth bit of a group
does. -/
def load? (ops : List Op) (o : Op) : Option (Fin 4 × UInt8) :=
  match o, o.bit? with
  | .prgWrite addr _, some b =>
    let group := (sent ops).drop ((sent ops).length / 5 * 5) ++ [b]
    if group.length = 5 then some (selected addr, word group) else none
  | _, _ => none

/-- `lastLoaded`, with the newest operation in front. -/
def lastLoadedFrom (i : Fin 4) : List Op → UInt8
  | [] => 0
  | o :: older =>
    if o = .reset then 0
    else match load? older.reverse o with
      | some (j, v) => if j = i then v else lastLoadedFrom i older
      | none => lastLoadedFrom i older

/-- What a history has loaded into a register last, zero if nothing since the last reset. -/
def lastLoaded (i : Fin 4) (ops : List Op) : UInt8 := lastLoadedFrom i ops.reverse

theorem lastLoaded_concat (i : Fin 4) (ops : List Op) (o : Op) :
    lastLoaded i (ops ++ [o]) =
      if o = .reset then 0
      else match load? ops o with
        | some (j, v) => if j = i then v else lastLoaded i ops
        | none => lastLoaded i ops := by
  rw [lastLoaded, List.reverse_concat, lastLoadedFrom, List.reverse_reverse]
  rfl

theorem lastLoaded_of_idle {i : Fin 4} {ops : List Op} {o : Op} (ho : o ≠ .reset)
    (hbit : o.bit? = none) : lastLoaded i (ops ++ [o]) = lastLoaded i ops := by
  have hload : load? ops o = none := by
    unfold load?
    rw [hbit]
    split
    · next h => cases h
    · rfl
  rw [lastLoaded_concat, if_neg ho, hload]

/-- A bit that completes a group loads it. -/
theorem lastLoaded_of_bit {i : Fin 4} {ops : List Op} {addr : UInt16} {v : UInt8} {b : Bool}
    (hbit : (Op.prgWrite addr v).bit? = some b) :
    lastLoaded i (ops ++ [.prgWrite addr v]) =
      if (run {} ops).bits.length = 4 ∧ selected addr = i then word ((run {} ops).bits ++ [b])
      else lastLoaded i ops := by
  have hload : load? ops (.prgWrite addr v) =
      if (run {} ops).bits.length = 4 then some (selected addr, word ((run {} ops).bits ++ [b]))
      else none := by
    unfold load?
    simp only [hbit, ← bits_run, List.length_append, List.length_singleton, Nat.reduceEqDiff]
  rw [lastLoaded_concat, if_neg (by simp), hload]
  by_cases hfull : (run {} ops).bits.length = 4
  · simp only [hfull, ↓reduceIte, true_and]
  · simp only [hfull, ↓reduceIte, false_and]

/-- A write loads a register other than the control register with the last bit of a group. -/
theorem getElem_write {s : Serial} (hbits : s.bits.length < 5) {i : Fin 4} (hi : i ≠ 0)
    (addr : UInt16) (v : UInt8) :
    (s.write addr v).registers[i] =
      if (v &&& 0x80 != 0) = false ∧ s.bits.length = 4 ∧ selected addr = i then
        word (s.bits ++ [v &&& 1 != 0])
      else s.registers[i] := by
  cases hv : (v &&& 0x80 != 0) with
  | true =>
    rw [write_of_clear hv, if_neg fun h => Bool.noConfusion h.1]
    exact Vector.getElem_set_ne (by decide) i.isLt fun h => hi (Fin.ext h.symm)
  | false =>
    obtain hlt | hfull := Nat.lt_or_eq_of_le (Nat.le_of_lt_succ hbits)
    · rw [write_of_lt hv hlt, if_neg fun h => Nat.ne_of_lt hlt h.2.1]
    · rw [write_of_full hv hfull]
      simp only [hfull, true_and, Fin.getElem_fin, Vector.getElem_set, Fin.val_inj]

/-- **A register other than the control register holds what has been loaded into it last.** -/
theorem getElem_run {i : Fin 4} (hi : i ≠ 0) (ops : List Op) :
    (run {} ops).registers[i] = lastLoaded i ops := by
  -- The control register alone does not start from zero, and is written by a clearing as well.
  have hstart : ({} : Serial).registers[i] = 0 := by
    fin_cases i
    · exact absurd rfl hi
    all_goals rfl
  induction ops using List.reverseRecOn with
  | nil => exact hstart
  | append_singleton ops o ih =>
    have hrun : run {} (ops ++ [o]) = (run {} ops).act o := List.foldl_concat ..
    rw [hrun]
    cases o with
    | reset =>
      rw [lastLoaded_concat, if_pos rfl]
      exact hstart
    | prgWrite addr v =>
      by_cases haddr : addr ≥ 0x8000
      · have hact : (run {} ops).act (.prgWrite addr v) = (run {} ops).write addr v := if_pos haddr
        have hlength : (run {} ops).bits.length < 5 := by
          rw [bits_run, List.length_drop]
          omega
        rw [hact, getElem_write hlength hi, ih]
        cases hv : (v &&& 0x80 != 0) with
        | true =>
          have hbit : (Op.prgWrite addr v).bit? = none := if_neg (by simp [bne_iff_ne.1 hv])
          rw [if_neg fun h => Bool.noConfusion h.1, lastLoaded_of_idle (by simp) hbit]
        | false =>
          have hbit : (Op.prgWrite addr v).bit? = some (v &&& 1 != 0) :=
            if_pos (by simp [haddr, bne_eq_false_iff_eq.1 hv])
          rw [lastLoaded_of_bit hbit]
          simp only [true_and]
      · have hact : (run {} ops).act (.prgWrite addr v) = run {} ops := if_neg haddr
        have hbit : (Op.prgWrite addr v).bit? = none := if_neg (by simp [haddr])
        rw [hact, lastLoaded_of_idle (by simp) hbit]
        exact ih
    | _ =>
      rw [lastLoaded_of_idle (by simp) rfl]
      exact ih

end Serial

/-! ### The windows -/

/-- The banks in the two windows of 16 KiB: the halves of one bank of 32 KiB, a bank beside the
first one, or a bank beside the one numbered 15. -/
def Mmc1.windows (mode bank : Nat) : Nat × Nat :=
  match mode with
  | 0 | 1 => (bank / 2 * 2, bank / 2 * 2 + 1)
  | 2 => (0, bank)
  | _ => (bank, 15)

/-- A program that is not too large is seen through these windows. -/
theorem Mmc1.prgBank_eq (s : Mmc1) {prgSize : Nat} (h : prgSize ≤ 256 * 1024) (addr : UInt16) :
    s.prgBank prgSize addr =
      let windows := windows (s.control >>> 2 &&& 3).toNat (s.prg &&& 0x0F).toNat
      if addr ≥ 0xC000 then windows.2 else windows.1 := by
  unfold prgBank windows
  rw [if_neg (Nat.not_lt.2 h), Nat.zero_add]
  generalize (s.control >>> 2 &&& 3).toNat = mode
  by_cases haddr : addr ≥ 0xC000 <;> rcases mode with _ | _ | _ | mode <;> simp [haddr]

/-- From an address on, the board shows a bank of 16 KiB of its program. -/
def ShowsBank (b : Board) (base : UInt16) (bank : Nat) : Prop :=
  ∀ offset < (0x4000 : UInt16),
    b.prgRom[bank * 0x4000 + offset.toNat]? = some (b.prgRead (base + offset))

theorem showsBank_of_prgBank {b : Board} {s : Mmc1} (hchip : b.chip = .mmc1 s) {count : Nat}
    (hcount : 0 < count) (hsize : b.prgRom.size = count * 0x4000) {base : UInt16}
    (hbase : base.toNat = 0x8000 ∨ base.toNat = 0xC000) {bank : Nat}
    (hbank : ∀ addr : UInt16, base.toNat ≤ addr.toNat → addr.toNat < base.toNat + 0x4000 →
      s.prgBank b.prgRom.size addr = bank) : b.ShowsBank base (bank % count) := by
  intro offset hoffset
  have hlt : offset.toNat < 0x4000 := UInt16.lt_iff_toNat_lt.1 hoffset
  have haddr : (base + offset).toNat = base.toNat + offset.toNat := by
    rw [UInt16.toNat_add]
    exact Nat.mod_eq_of_lt (by omega)
  have hshown := hbank (base + offset) (by omega) (by omega)
  rw [← getElem?_prgRead (by omega) (by omega), prgIndex, hchip, Chip.prgBank, Chip.prgWindow,
    hshown, hsize, bankIndex_of_mul bank (by decide) hcount, haddr]
  congr 2
  omega

theorem showsBank_mmc1 {b : Board} {s : Mmc1} (hchip : b.chip = .mmc1 s) {count : Nat}
    (hcount : 0 < count) (hmax : count ≤ 16) (hsize : b.prgRom.size = count * 0x4000) :
    let windows := Mmc1.windows (s.control >>> 2 &&& 3).toNat (s.prg &&& 0x0F).toNat
    b.ShowsBank 0x8000 (windows.1 % count) ∧ b.ShowsBank 0xC000 (windows.2 % count) := by
  have hsmall : b.prgRom.size ≤ 256 * 1024 := by omega
  have hupper (addr : UInt16) : addr ≥ 0xC000 ↔ 0xC000 ≤ addr.toNat := UInt16.le_iff_toNat_le
  constructor
  · refine showsBank_of_prgBank hchip hcount hsize (Or.inl rfl) fun addr _ hlt => ?_
    have hlower : ¬addr ≥ 0xC000 := (hupper addr).not.2 (Nat.not_le.2 hlt)
    rw [s.prgBank_eq hsmall]
    exact if_neg hlower
  · refine showsBank_of_prgBank hchip hcount hsize (Or.inr rfl) fun addr hle _ => ?_
    rw [s.prgBank_eq hsmall]
    exact if_pos ((hupper addr).2 hle)

/-- The bank numbered 15 is the last one if the banks divide sixteen. -/
theorem fifteen_mod_iff {count : Nat} (hcount : 0 < count) (hmax : count ≤ 16) :
    15 % count = count - 1 ↔ count ∣ 16 := by
  interval_cases count <;> decide

/-- **The program windows of an MMC1.**  On a board with 1 to 16 banks of 16 KiB, the two windows
show after every history the banks that the mode selects with what the program register has been
loaded with last, and in the last mode, in which the chip starts and which a reset restores, the
bank numbered 15 from `$C000` on, modulo the number of banks.

So the end of the program, with the vectors in it, is seen there if that number divides sixteen, and
another bank if it does not. -/
theorem serial_banks {cart : Cartridge} (hid : cart.mapperId = 1) {count : Nat} (hcount : 0 < count)
    (hmax : count ≤ 16) (hsize : cart.prgRom.size = count * 0x4000) :
    ∃ b, ofCartridge cart = some b ∧
      (∀ ops : List Op, (b.run ops).prgRom = cart.prgRom ∧
        ∃ s, (b.run ops).chip = .mmc1 s ∧
          let windows := Mmc1.windows (s.control >>> 2 &&& 3).toNat
            (Serial.lastLoaded 3 ops &&& 0x0F).toNat
          (b.run ops).ShowsBank 0x8000 (windows.1 % count) ∧
          (b.run ops).ShowsBank 0xC000 (windows.2 % count)) ∧
      (∀ ops : List Op, ops = [] ∨ ops.getLast? = some .reset →
        (b.run ops).ShowsBank 0x8000 0 ∧ (b.run ops).ShowsBank 0xC000 (15 % count)) ∧
      (15 % count = count - 1 ↔ count ∣ 16) := by
  have hchip : chipFor cart = some (.mmc1 {}) := by
    simp only [chipFor, hid]
  obtain ⟨b, hb, hbchip, hrom⟩ := exists_board hchip
  have hrun (ops : List Op) : (b.run ops).chip = .mmc1 (Serial.run {} ops).chip :=
    Serial.chip_run (s := {}) hbchip (Nat.zero_lt_succ 4) ops
  have hbanks (ops : List Op) : (b.run ops).prgRom.size = count * 0x4000 := by
    rw [prgRom_run, hrom, hsize]
  refine ⟨b, hb, fun ops => ⟨(prgRom_run b ops).trans hrom, _, hrun ops, ?_⟩, fun ops hops => ?_,
    fifteen_mod_iff hcount hmax⟩
  · have hprg : (Serial.run {} ops).chip.prg = Serial.lastLoaded 3 ops :=
      Serial.getElem_run (i := 3) (by decide) ops
    rw [← hprg]
    exact showsBank_mmc1 (hrun ops) hcount hmax (hbanks ops)
  · have hstart : Serial.run {} ops = {} := by
      rcases hops with rfl | hlast
      · rfl
      · obtain ⟨before, rfl⟩ := List.getLast?_eq_some_iff.1 hlast
        exact List.foldl_concat ..
    have hshows := showsBank_mmc1 (hrun ops) hcount hmax (hbanks ops)
    rw [hstart] at hshows
    exact hshows.imp_left fun h => by rwa [← Nat.zero_mod count]

/-- The parts of an image for an MMC1 with three banks, which are made of the numbers of their
KiB. -/
def threeBanks : Cartridge.Image.Parts where
  header := #[0x4E, 0x45, 0x53, 0x1A, 3, 0, 0x10, 0, 0, 0, 0, 0, 0, 0, 0, 0]
  trainer := #[]
  prgRom := .ofFn fun i : Fin 0xC000 => .ofNat (i.val / 0x400)
  chrRom := #[]
  rest := #[]

theorem size_threeBanks : threeBanks.prgRom.size = 3 * 0x4000 := by
  simp only [threeBanks, Array.size_ofFn, Nat.reduceMul]

theorem fitting_threeBanks : threeBanks.Fitting :=
  ⟨rfl, rfl, size_threeBanks.trans (by decide), rfl⟩

/-- The halves of the bank of 32 KiB numbered 2 are the banks numbered 4 and 5, which are those
numbered 1 and 2 of three. -/
theorem serial_banks_halves :
    let cart : Cartridge :=
      { prgRom := threeBanks.prgRom, chr := #[0], chrIsRam := true, trainer := none
        mirroring := .horizontal, mapperId := 1, submapper := 0, tvSystem := .ntsc
        dialect := .iNes, battery := false, prgRamSize := 0, miscRom := #[] }
    let load (addr : UInt16) (bits : List UInt8) : List Op := bits.map (.prgWrite addr)
    let ops := load 0xE000 [1, 0, 1, 0, 0] ++ load 0x8000 [0, 1, 0, 0, 0]
    ∃ b, ofCartridge cart = some b ∧
      (b.run ops).ShowsBank 0x8000 1 ∧ (b.run ops).ShowsBank 0xC000 2 ∧
      (b.run (ops ++ [.reset])).ShowsBank 0xC000 0 := by
  intro cart load ops
  have hsize : cart.prgRom.size = 3 * 0x4000 := by simp only [cart, size_threeBanks]
  obtain ⟨b, hb, hrun, hreset, -⟩ := @serial_banks cart rfl 3 (by decide) (by decide) hsize
  obtain ⟨-, s, hs, hlower, hupper⟩ := hrun ops
  have hstate : (b.run ops).chip = .mmc1 { control := 2, prg := 5 } := by
    obtain rfl := Option.some.inj hb
    decide
  obtain rfl : s = { control := 2, prg := 5 } := Chip.mmc1.inj (hs.symm.trans hstate)
  have hwindows : Mmc1.windows ((2 : UInt8) >>> 2 &&& 3).toNat
      (Serial.lastLoaded 3 ops &&& 0x0F).toNat = (4, 5) := by decide
  have hfixed := (hreset (ops ++ [.reset]) (.inr List.getLast?_concat)).2
  simp only [hwindows, Nat.reduceMod] at hlower hupper hfixed
  exact ⟨b, hb, hlower, hupper, hfixed⟩

/-- **The last of three banks is out of sight at power-on.**  The processor starts at the vector of
the first one. -/
theorem last_bank_hidden :
    ∃ cart b, Cartridge.ofBytes threeBanks.bytes = .ok cart ∧ cart.mapperId = 1 ∧
      cart.prgRom.size = 3 * 0x4000 ∧ ofCartridge cart = some b ∧
      cart.prgRom[2 * 0x4000 + 0x3FFC]? = some 47 ∧ b.prgRead 0xFFFC = 15 := by
  obtain ⟨h, hheader, hid⟩ :
      ∃ h, Cartridge.Header.ofBytes threeBanks.header = .ok h ∧ h.mapperId = 1 := by
    refine ⟨_, rfl, ?_⟩
    decide +kernel
  have hcart := Cartridge.Image.ofBytes_bytes fitting_threeBanks hheader (by decide)
  -- By rewriting, since comparing the two would compute the bytes of the program.
  have hcut : (Cartridge.Image.cut h threeBanks).prgRom = threeBanks.prgRom := by
    simp only [Cartridge.Image.cut]
  have hchip : chipFor (Cartridge.Image.cut h threeBanks) = some (.mmc1 {}) := by
    simp only [chipFor, Cartridge.Image.cut, hid]
  obtain ⟨b, hb, hbchip, hrom⟩ := exists_board hchip
  have hbyte (i : Nat) (hi : i < 0xC000) :
      threeBanks.prgRom[i]? = some (.ofNat (i / 0x400)) := by
    simp only [threeBanks, Array.getElem?_ofFn, hi, ↓reduceDIte]
  rw [hcut] at hrom
  have hsize : b.prgRom.size = 3 * 0x4000 := by rw [hrom, size_threeBanks]
  have hshown := (showsBank_mmc1 hbchip (by decide) (by decide) hsize).2 0x3FFC (by decide)
  refine ⟨_, b, hcart, hid, by rw [hcut, size_threeBanks], hb,
    by rw [hcut]; exact hbyte _ (by decide), ?_⟩
  rw [hrom] at hshown
  exact Option.some.inj (hshown.symm.trans (hbyte 0x3FFC (by decide)))

end Nes.Board
