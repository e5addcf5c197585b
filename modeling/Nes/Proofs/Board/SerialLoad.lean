import Nes.Proofs.Board.History
import Mathlib.Data.List.DropRight
import Mathlib.Data.Nat.Digits.Defs

/-!
# Registers loaded bit by bit

An MMC1 tells how many bits it has received from the place of a marker among them.  A `Serial`
keeps the bits in a list and loads a register when there are five.  The two agree after every
history of a board (`Serial.chip_write`, `Serial.chip_run`), since the shift register is the list
behind a marker (`Serial.framed`), and a write moves it by one place (`Serial.shift_word`).

The list holds what has been sent since it was last cleared, without the groups of five that have
been loaded (`Serial.bits_run`); so nothing but a clearing moves the groups (`serial_load`).
-/

namespace Nes.Board

namespace Op

/-- The bit that an operation sends to a chip which is loaded bit by bit. -/
def bit? : Op → Option Bool
  | prgWrite addr v => if addr ≥ 0x8000 && v &&& 0x80 == 0 then some (v &&& 1 != 0) else none
  | chrWrite .. | clockLine | clockCycle | reset => none

/-- Such a chip forgets the bits it has received. -/
def clears : Op → Bool
  | prgWrite addr v => addr ≥ 0x8000 && v &&& 0x80 != 0
  | reset => true
  | chrWrite .. | clockLine | clockCycle => false

end Op

/-- A chip that is loaded bit by bit, and counts the bits. -/
structure Serial where
  /-- The bits received, the first one in front. -/
  bits : List Bool := []
  /-- The control register, the two pattern banks and the program bank. -/
  registers : Vector UInt8 4 := #v[0x0C, 0, 0, 0]
deriving DecidableEq, Repr

namespace Serial

/-- The byte with some bits, from bit 0 on. -/
def word (bits : List Bool) : UInt8 := UInt8.ofNat (Nat.ofDigits 2 (bits.map Bool.toNat))

/-- The register that bits 13 and 14 of an address select. -/
def selected (addr : UInt16) : Fin 4 :=
  ⟨addr.toNat / 0x2000 % 4, Nat.mod_lt _ (by decide)⟩

/-- A write to `$8000` or above. -/
def write (s : Serial) (addr : UInt16) (v : UInt8) : Serial :=
  if v &&& 0x80 != 0 then
    { bits := [], registers := s.registers.set 0 (s.registers[0] ||| 0x0C) }
  else
    let bits := s.bits ++ [v &&& 1 != 0]
    if bits.length = 5 then
      { bits := [], registers := s.registers.set (selected addr) (word bits) }
    else { s with bits }

/-- The chip after an operation on its board. -/
def act (s : Serial) : Op → Serial
  | .prgWrite addr v => if addr ≥ 0x8000 then s.write addr v else s
  | .reset => {}
  | .chrWrite .. | .clockLine | .clockCycle => s

/-- The chip after a history of its board. -/
def run (s : Serial) (ops : List Op) : Serial := ops.foldl act s

/-- Five places: a marker, before it nothing and behind it the bits. -/
def framed (bits : List Bool) : List Bool :=
  List.replicate (4 - bits.length) false ++ true :: bits

/-- The chip with a shift register in place of the list. -/
def chip (s : Serial) : Mmc1 where
  shift := word (framed s.bits)
  control := s.registers[0]
  chr0 := s.registers[1]
  chr1 := s.registers[2]
  prg := s.registers[3]

variable {bits : List Bool}

/-! ### The shift register -/

theorem ofDigits_lt (bits : List Bool) :
    Nat.ofDigits 2 (bits.map Bool.toNat) < 2 ^ bits.length := by
  rw [← bits.length_map Bool.toNat]
  refine Nat.ofDigits_lt_base_pow_length (by decide) fun digit hdigit => ?_
  obtain ⟨b, -, rfl⟩ := List.mem_map.1 hdigit
  exact b.toNat_lt

theorem toNat_word (h : bits.length ≤ 8) :
    (word bits).toNat = Nat.ofDigits 2 (bits.map Bool.toNat) :=
  UInt8.toNat_ofNat_of_lt' ((ofDigits_lt bits).trans_le (Nat.pow_le_pow_right (by decide) h))

theorem toNat_word_cons (b : Bool) (h : bits.length < 8) :
    (word (b :: bits)).toNat = b.toNat + 2 * Nat.ofDigits 2 (bits.map Bool.toNat) :=
  toNat_word h

theorem toNat_low (v : UInt8) : (v &&& 1).toNat = v.toNat % 2 := by
  rw [UInt8.toNat_and]
  exact Nat.and_one_is_mod _

theorem low_eq (v : UInt8) : (v &&& 1 != 0) = decide (v.toNat % 2 = 1) := by
  rw [Bool.eq_iff_iff, bne_iff_ne, decide_eq_true_iff, ← Nat.mod_two_ne_zero, ← toNat_low]
  exact UInt8.toNat_inj.not.symm

theorem word_low (b : Bool) (h : bits.length < 8) : (word (b :: bits) &&& 1 != 0) = b := by
  rw [low_eq, toNat_word_cons b h, Nat.add_mul_mod_self_left]
  cases b <;> rfl

/-- A shift drops the bit in front and takes in another behind. -/
theorem shift_word (b : Bool) (v : UInt8) (h : bits.length = 4) :
    word (b :: bits) >>> 1 ||| (v &&& 1) <<< 4 = word (bits ++ [v &&& 1 != 0]) := by
  have hlt : Nat.ofDigits 2 (bits.map Bool.toNat) < 2 ^ 4 := h ▸ ofDigits_lt bits
  have hkept : (word (b :: bits) >>> 1).toNat = Nat.ofDigits 2 (bits.map Bool.toNat) := by
    have hb := b.toNat_lt
    rw [UInt8.toNat_shiftRight, toNat_word_cons b (by omega)]
    change (b.toNat + 2 * _) >>> 1 = _
    rw [Nat.shiftRight_eq_div_pow]
    omega
  have hnew : ((v &&& 1) <<< 4).toNat = (v &&& 1 != 0).toNat <<< 4 := by
    rw [UInt8.toNat_shiftLeft, toNat_low, low_eq]
    rcases Nat.mod_two_eq_zero_or_one v.toNat with hv | hv <;> rw [hv] <;> rfl
  have hlength : (bits ++ [v &&& 1 != 0]).length ≤ 8 := by
    rw [List.length_append, List.length_singleton, h]
    decide
  rw [← UInt8.toNat_inj, UInt8.toNat_or, hkept, hnew, toNat_word hlength, Nat.or_comm,
    ← Nat.shiftLeft_add_eq_or_of_lt hlt, List.map_append, Nat.ofDigits_append, List.length_map, h,
    Nat.shiftLeft_eq, Nat.add_comm, Nat.mul_comm]
  exact congrArg _ (congrArg _ Nat.ofDigits_singleton.symm)

theorem framed_full (h : bits.length = 4) : framed bits = true :: bits := by
  rw [framed, h]
  rfl

/-- The marker moves to the front as bits come in behind. -/
theorem framed_of_lt (h : bits.length < 4) :
    ∃ places : List Bool, places.length = 4 ∧ framed bits = false :: places ∧
      ∀ b, framed (bits ++ [b]) = places ++ [b] := by
  refine ⟨List.replicate (3 - bits.length) false ++ true :: bits, ?_, ?_, fun b => ?_⟩
  · rw [List.length_append, List.length_replicate, List.length_cons]
    omega
  · rw [framed, show 4 - bits.length = (3 - bits.length) + 1 by omega, List.replicate_succ]
    rfl
  · rw [framed, List.length_append, List.length_singleton, Nat.add_comm, Nat.sub_add_eq,
      List.append_assoc, List.cons_append]

/-! ### A write -/

theorem toNat_selected (addr : UInt16) : (addr >>> 13 &&& 3).toNat = (selected addr).val := by
  rw [UInt16.toNat_and, UInt16.toNat_shiftRight]
  change (addr.toNat >>> 13) &&& (2 ^ 2 - 1) = addr.toNat / 0x2000 % 4
  rw [Nat.and_two_pow_sub_one_eq_mod, Nat.shiftRight_eq_div_pow]

theorem word_framed_nil : word (framed []) = Mmc1.emptyShift := by
  decide

theorem chip_load (s : Serial) {addr : UInt16} {i : Fin 4}
    (h : (addr >>> 13 &&& 3).toNat = i.val) (v : UInt8) :
    { s.chip with shift := Mmc1.emptyShift }.load addr v =
      chip { bits := [], registers := s.registers.set i v } := by
  unfold Mmc1.load
  rw [h]
  match i with
  | ⟨0, _⟩ | ⟨1, _⟩ | ⟨2, _⟩ | ⟨3, _⟩ => simp [chip, word_framed_nil]

section

variable {s : Serial} {v : UInt8}

theorem write_of_clear (h : (v &&& 0x80 != 0) = true) (addr : UInt16) :
    s.write addr v = { bits := [], registers := s.registers.set 0 (s.registers[0] ||| 0x0C) } :=
  if_pos h

theorem write_of_lt (h : (v &&& 0x80 != 0) = false) (hbits : s.bits.length < 4) (addr : UInt16) :
    s.write addr v = { s with bits := s.bits ++ [v &&& 1 != 0] } := by
  have hlength : (s.bits ++ [v &&& 1 != 0]).length ≠ 5 := by
    rw [List.length_append, List.length_singleton]
    omega
  exact (if_neg (Bool.eq_false_iff.1 h)).trans (if_neg hlength)

theorem write_of_full (h : (v &&& 0x80 != 0) = false) (hbits : s.bits.length = 4) (addr : UInt16) :
    s.write addr v =
      { bits := []
        registers := s.registers.set (selected addr) (word (s.bits ++ [v &&& 1 != 0])) } := by
  have hlength : (s.bits ++ [v &&& 1 != 0]).length = 5 := by
    rw [List.length_append, List.length_singleton, hbits]
  exact (if_neg (Bool.eq_false_iff.1 h)).trans (if_pos hlength)

/-- **A write to the chip** is a write to the chip that counts. -/
theorem chip_write (hbits : s.bits.length < 5) (addr : UInt16) (v : UInt8) :
    s.chip.write addr v = (s.write addr v).chip := by
  unfold Mmc1.write
  cases h : (v &&& 0x80 != 0) with
  | true =>
    rw [write_of_clear h, if_pos rfl]
    simp [chip, word_framed_nil]
  | false =>
    rw [if_neg Bool.false_ne_true]
    dsimp only
    obtain hlt | hfull := Nat.lt_or_eq_of_le (Nat.le_of_lt_succ hbits)
    · obtain ⟨places, hplaces, hframed, hnext⟩ := framed_of_lt hlt
      have hmarker : (s.chip.shift &&& 1 != 0) = false := by
        rw [chip, hframed, word_low false (by omega)]
      rw [write_of_lt h hlt, hmarker, if_neg Bool.false_ne_true, chip, chip, hframed,
        shift_word false v hplaces, hnext]
    · have hmarker : (s.chip.shift &&& 1 != 0) = true := by
        rw [chip, framed_full hfull, word_low true (by omega)]
      have hword : s.chip.shift >>> 1 ||| (v &&& 1) <<< 4 = word (s.bits ++ [v &&& 1 != 0]) := by
        rw [chip, framed_full hfull, shift_word true v hfull]
      rw [write_of_full h hfull, hmarker, if_pos rfl, hword, chip_load s (toNat_selected addr)]

end

theorem length_write {s : Serial} (h : s.bits.length < 5) (addr : UInt16) (v : UInt8) :
    (s.write addr v).bits.length < 5 := by
  unfold write
  dsimp only
  split_ifs with hclear hfull
  · exact Nat.zero_lt_succ 4
  · exact Nat.zero_lt_succ 4
  · rw [List.length_append, List.length_singleton] at hfull ⊢
    omega

/-! ### A history -/

theorem length_act {s : Serial} (h : s.bits.length < 5) (o : Op) : (s.act o).bits.length < 5 := by
  cases o with
  | prgWrite addr v =>
    simp only [act]
    split_ifs
    · exact length_write h addr v
    · exact h
  | reset => exact Nat.zero_lt_succ 4
  | _ => exact h

/-- The chip of a board follows the chip that counts. -/
theorem chip_act {b : Board} {s : Serial} (hb : b.chip = .mmc1 s.chip) (h : s.bits.length < 5)
    (o : Op) : (o.act b).chip = .mmc1 (s.act o).chip := by
  cases o with
  | prgWrite addr v =>
    simp only [Op.act, Board.prgWrite, act]
    split_ifs
    · rw [hb, ← chip_write h]
      rfl
    · exact hb
    · exact hb
  | chrWrite addr v =>
    simp only [Op.act, Board.chrWrite]
    split_ifs <;> exact hb
  | clockLine =>
    simp only [Op.act, Board.clockLine, hb]
    rfl
  | clockCycle =>
    simp only [Op.act, Board.clockCycle, hb]
    rfl
  | reset =>
    simp only [Op.act, Board.reset, hb]
    rfl

theorem chip_run {b : Board} {s : Serial} (hb : b.chip = .mmc1 s.chip) (h : s.bits.length < 5)
    (ops : List Op) : (b.run ops).chip = .mmc1 (s.run ops).chip := by
  induction ops generalizing b s with
  | nil => exact hb
  | cons o ops ih => exact ih (chip_act hb h o) (length_act h o)

/-! ### The bits that have not been loaded -/

/-- The bits sent since the chip was cleared. -/
def sent (ops : List Op) : List Bool := (ops.rtakeWhile fun o => !o.clears).filterMap Op.bit?

theorem act_of_clears (s : Serial) {o : Op} (h : o.clears = true) : (s.act o).bits = [] := by
  cases o with
  | prgWrite addr v =>
    obtain ⟨haddr, hv⟩ := Bool.and_eq_true_iff.1 h
    rw [act, if_pos (of_decide_eq_true haddr), write_of_clear hv]
  | reset => rfl
  | _ => exact Bool.noConfusion h

theorem act_of_idle (s : Serial) {o : Op} (h : o.clears = false) (hbit : o.bit? = none) :
    s.act o = s := by
  cases o with
  | prgWrite addr v =>
    refine if_neg fun haddr => ?_
    simp_all [Op.clears, Op.bit?]
  | reset => exact Bool.noConfusion h
  | _ => rfl

theorem act_of_bit (s : Serial) {o : Op} {b : Bool} (h : o.bit? = some b) :
    ∃ addr v, s.act o = s.write addr v ∧ (v &&& 0x80 != 0) = false ∧ (v &&& 1 != 0) = b := by
  cases o with
  | prgWrite addr v =>
    simp only [Op.bit?] at h
    split_ifs at h with hsent
    obtain ⟨haddr, hv⟩ := Bool.and_eq_true_iff.1 hsent
    have hv' : (v &&& 0x80 != 0) = false := bne_eq_false_iff_eq.2 (beq_iff_eq.1 hv)
    exact ⟨addr, v, if_pos (of_decide_eq_true haddr), hv', Option.some.inj h⟩
  | _ => simp [Op.bit?] at h

theorem sent_concat (ops : List Op) (o : Op) :
    sent (ops ++ [o]) = if o.clears then [] else sent ops ++ o.bit?.toList := by
  unfold sent
  cases h : o.clears with
  | true => simp [h]
  | false => cases hbit : o.bit? <;> simp [h, hbit]

/-- **The bits a chip has received** are the bits sent to it since it was cleared, but for those in
groups of five. -/
theorem bits_run (ops : List Op) :
    (run {} ops).bits = (sent ops).drop ((sent ops).length / 5 * 5) := by
  induction ops using List.reverseRecOn with
  | nil => rfl
  | append_singleton ops o ih =>
    have hrun : run {} (ops ++ [o]) = (run {} ops).act o := List.foldl_concat ..
    rw [hrun, sent_concat]
    cases hclears : o.clears with
    | true =>
      rw [if_pos rfl]
      exact act_of_clears _ hclears
    | false =>
      cases hbit : o.bit? with
      | none =>
        rw [act_of_idle _ hclears hbit, ih]
        simp
      | some b =>
        obtain ⟨addr, v, hact, hv, rfl⟩ := act_of_bit (run {} ops) hbit
        have hlength := congrArg List.length ih
        rw [List.length_drop] at hlength
        rw [hact]
        obtain hlt | hfull := Nat.lt_or_ge (run {} ops).bits.length 4
        · have hgroups : ((sent ops).length + 1) / 5 = (sent ops).length / 5 := by omega
          rw [write_of_lt hv hlt, ih]
          simp only [Bool.false_eq_true, ↓reduceIte, Option.toList_some, List.length_append,
            List.length_singleton, hgroups]
          rw [List.drop_append_of_le_length (Nat.div_mul_le_self _ 5)]
        · rw [write_of_full hv (by omega)]
          refine (List.drop_of_length_le ?_).symm
          simp only [Bool.false_eq_true, ↓reduceIte, Option.toList_some, List.length_append,
            List.length_singleton]
          omega

/-- Fewer than five bits load nothing. -/
theorem run_of_lt (s : Serial) {ops : List Op} (hclears : ∀ o ∈ ops, o.clears = false)
    (h : s.bits.length + (ops.filterMap Op.bit?).length < 5) :
    s.run ops = { s with bits := s.bits ++ ops.filterMap Op.bit? } := by
  induction ops generalizing s with
  | nil => simp [run]
  | cons o ops ih =>
    rw [List.forall_mem_cons] at hclears
    have hrun : s.run (o :: ops) = (s.act o).run ops := rfl
    cases hbit : o.bit? with
    | none =>
      rw [List.filterMap_cons_none hbit] at h ⊢
      rw [hrun, act_of_idle s hclears.1 hbit, ih s hclears.2 h]
    | some b =>
      rw [List.filterMap_cons_some hbit, List.length_cons] at h
      obtain ⟨addr, v, hact, hv, rfl⟩ := act_of_bit s hbit
      rw [hrun, hact, write_of_lt hv (by omega), ih _ hclears.2, List.filterMap_cons_some hbit,
        List.append_assoc, List.singleton_append]
      rw [List.length_append, List.length_singleton]
      omega

end Serial

/-- **A board with an MMC1 loads registers bit by bit.**  After every history of the board, its chip
is the chip that counts, with a shift register in place of the bits.

The bits are those sent since the last write with bit 7 set and the last reset, but for those in
groups of five; and until there are five of them, nothing but the shift register changes. -/
theorem serial_load {cart : Cartridge} (h : cart.mapperId = 1) :
    ∃ b, ofCartridge cart = some b ∧ ∀ ops : List Op,
      let s := Serial.run {} ops
      (b.run ops).chip = .mmc1 s.chip ∧
      s.bits = (Serial.sent ops).drop ((Serial.sent ops).length / 5 * 5) ∧
      ∀ more : List Op, (∀ o ∈ more, o.clears = false) →
        s.bits.length + (more.filterMap Op.bit?).length < 5 →
        (b.run (ops ++ more)).chip =
          .mmc1 { s with bits := s.bits ++ more.filterMap Op.bit? }.chip := by
  have hchip : chipFor cart = some (.mmc1 {}) := by
    simp only [chipFor, h]
  refine ⟨_, congrArg _ hchip, fun ops => ?_⟩
  have hstart : ({} : Serial).bits.length < 5 := Nat.zero_lt_succ 4
  refine ⟨Serial.chip_run rfl hstart ops, Serial.bits_run ops, fun more hmore hlength => ?_⟩
  rw [Serial.chip_run rfl hstart, Serial.run, List.foldl_append, ← Serial.run, ← Serial.run,
    Serial.run_of_lt _ hmore hlength]

/-- Two bits are cleared away, and four more with their addresses in disorder load nothing.  The
address of the fifth selects the program bank, which receives 19. -/
theorem serial_load_bank :
    let cart : Cartridge :=
      { prgRom := #[0xEA], chr := #[0], chrIsRam := true, trainer := none
        mirroring := .horizontal, mapperId := 1, submapper := 0, tvSystem := .ntsc
        dialect := .iNes, battery := false, prgRamSize := 0, miscRom := #[] }
    let cleared : List Op := [.prgWrite 0x8000 1, .prgWrite 0xA000 0, .prgWrite 0xC000 0x80]
    let four : List Op := [.prgWrite 0x8000 1, .prgWrite 0xC000 0x7F, .clockLine,
      .prgWrite 0xA000 0, .prgWrite 0x6000 1, .prgWrite 0x8000 2, .chrWrite 0 1]
    ∃ b, ofCartridge cart = some b ∧
      (b.run (cleared ++ four)).chip = .mmc1 { shift := 0x07 } ∧
      (b.run (cleared ++ four ++ [.prgWrite 0xFFFF 1])).chip = .mmc1 { prg := 19 } := by
  intro cart cleared four
  obtain ⟨b, hb, hrun⟩ := @serial_load cart rfl
  have hfour := (hrun cleared).2.2 four (by decide) (by decide)
  have hfive := (hrun (cleared ++ four ++ [.prgWrite 0xFFFF 1])).1
  exact ⟨b, hb, hfour.trans (by decide), hfive.trans (by decide)⟩

end Nes.Board
