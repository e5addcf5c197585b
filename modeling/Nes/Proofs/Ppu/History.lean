import Nes.Proofs.Ppu.Checked

/-!
# Histories of the picture unit

Dots, accesses to registers, copies into sprite memory, questions and resets, in any order and with
any cartridge at each of them, never stop the picture unit in words (`operations_checked`).  Every
operation in words answers the words of what the library's operation answers (`act?_words`).  That
its registers keep to their ranges is told by the types of the library, but for the beam, which
stays in the frame (`Timely`), and the colours, which keep to six bits (`SixBits`).
-/

namespace Nes.Ppu

open Checked

variable {γ : Type} [PictureBus γ] (p : Ppu) (k : Bool) (cart : γ)

/-! ### Registers -/

theorem readData?_words :
    (p.words k).readData? cart = some ((p.readData cart).1, (p.readData cart).2.words k) := by
  have hlt : p.v.toNat % 0x4000 < 2 ^ 16 := by omega
  have haddr : (p.words k).v &&& 0x3FFF = p.v.toNat % 0x4000 :=
    Nat.and_two_pow_sub_one_eq_mod p.v.toNat 14
  have hv : Word.advance (p.words k).v (p.words k).control.increment =
      (p.v.advance p.control.increment).toNat := Word.advance_toNat p.v _
  unfold Words.readData? readData
  rw [haddr, hv]
  by_cases hpalette : 0x3F00 ≤ p.v.toNat % 0x4000
  · have hge : UInt16.ofNat (p.v.toNat % 0x4000) ≥ 0x3F00 := (le_low_iff _ _).2 hpalette
    have hunder : UInt16.ofNat (p.v.toNat % 0x4000 - 0x1000) =
        UInt16.ofNat (p.v.toNat % 0x4000) - 0x1000 := UInt16.ofNat_sub (by omega)
    simp only [if_pos hpalette, if_pos hge]
    refine bind_eq (sub_eq (by omega)) ?_
    refine bind_eq (p.readMemory?_words k cart (by omega)) ?_
    refine bind_eq (p.readMemory?_words k cart hlt) ?_
    rw [hunder]
    rfl
  · have hnot : ¬UInt16.ofNat (p.v.toNat % 0x4000) ≥ 0x3F00 := (le_low_iff _ _).not.2 hpalette
    simp only [if_neg hpalette, if_neg hnot]
    exact bind_eq (p.readMemory?_words k cart hlt) rfl

theorem readRegister?_words (number : UInt16) :
    (p.words k).readRegister? cart number =
      some ((p.readRegister cart number).1, (p.readRegister cart number).2.words k) := by
  unfold Words.readRegister? readRegister
  generalize (number &&& 7).toNat = register
  match register with
  | 2 => rfl
  | 4 => exact bind_eq (bind_eq (Vector.getElem?_eq_getElem p.spriteAddr.toNat_lt) rfl) rfl
  | 7 => exact bind_eq (p.readData?_words k cart) rfl
  | 0 | 1 | 3 | 5 | 6 => rfl
  | _ + 8 => rfl

theorem writeControl_words (d : UInt8) :
    (p.words k).writeControl d = (p.writeControl d).words k := by
  have ht : Word.setTables (p.words k).t d =
      ({ p.t with tableX := d &&& 1 != 0, tableY := d &&& 2 != 0 } : Scroll).toNat :=
    Word.setTables_toNat p.t d
  unfold Words.writeControl
  rw [ht]
  rfl

theorem writeScroll_words (d : UInt8) :
    (p.words k).writeScroll d = (p.writeScroll d).words k := by
  have hrow : Word.setRow (p.words k).t d =
      ({ p.t with fineY := Bits.low3 d, coarseY := Bits.high5 d } : Scroll).toNat :=
    Word.setRow_toNat p.t d
  have hcolumn : Word.setColumn (p.words k).t d =
      ({ p.t with coarseX := Bits.high5 d } : Scroll).toNat := Word.setColumn_toNat p.t d
  have hfine : d.toNat &&& 7 = (Bits.low3 d).val := Nat.and_two_pow_sub_one_eq_mod d.toNat 3
  unfold Words.writeScroll
  rw [hrow, hcolumn, hfine]
  exact ite_eq (f := fun q => words q k) (fun _ => rfl) fun _ => rfl

theorem writeAddr_words (d : UInt8) : (p.words k).writeAddr d = (p.writeAddr d).words k := by
  have hlow : Word.setLow (p.words k).t d =
      (Scroll.ofNat (p.t.toNat / 256 * 256 + d.toNat)).toNat := Word.setLow_toNat p.t d
  have hhigh : Word.setHigh (p.words k).t d =
      (Scroll.ofNat (d.toNat % 64 * 256 + p.t.toNat % 256)).toNat := Word.setHigh_toNat p.t d
  unfold Words.writeAddr
  rw [hlow, hhigh]
  exact ite_eq (f := fun q => words q k) (fun _ => rfl) fun _ => rfl

theorem advance_words :
    { p.words k with v := Word.advance (p.words k).v (p.words k).control.increment } =
      p.advance.words k := by
  have hv : Word.advance (p.words k).v (p.words k).control.increment =
      (p.v.advance p.control.increment).toNat := Word.advance_toNat p.v _
  rw [hv]
  rfl

theorem writeSprite?_words (d : UInt8) :
    (p.words k).writeSprite? d = some ((p.writeSprite d).words k) := dif_pos p.spriteAddr.toNat_lt

theorem writeSprites?_words (page : List UInt8) :
    page.foldlM Words.writeSprite? (p.words k) = some ((p.writeSprites page).words k) := by
  induction page generalizing p with
  | nil => rfl
  | cons d page ih => exact bind_eq (p.writeSprite?_words k d) (ih (p.writeSprite d))

theorem writeRegister?_words (number : UInt16) (d : UInt8) :
    (p.words k).writeRegister? cart number d =
      some ((p.writeRegister cart number d).1.words k, (p.writeRegister cart number d).2) := by
  unfold Words.writeRegister? writeRegister
  let q : Ppu := { p with openBus := d }
  generalize (number &&& 7).toNat = register
  match register with
  | 0 => exact congrArg (fun w => some (w, cart)) (q.writeControl_words k d)
  | 1 | 2 | 3 => rfl
  | 4 => exact bind_eq (q.writeSprite?_words k d) rfl
  | 5 => exact congrArg (fun w => some (w, cart)) (q.writeScroll_words k d)
  | 6 => exact congrArg (fun w => some (w, cart)) (q.writeAddr_words k d)
  | 7 | _ + 8 =>
    have hv : q.v.toNat < 2 ^ 16 := Nat.lt_trans q.v.toNat_lt (by decide)
    refine bind_eq (q.writeMemory?_words k cart hv d) ?_
    exact congrArg (fun w => some (w, (q.writeMemory cart (UInt16.ofNat q.v.toNat) d).2))
      (advance_words _ k)

/-! ### Operations -/

/-- The place of the picture being drawn after an operation: the pictures change their roles when
the blank starts. -/
def Op.place (p : Ppu) (k : Bool) : Op γ → Bool
  | tick _ => k ^^ p.beam.entersVblank
  | _ => k

theorem act?_words (h : p.beam.InFrame) (op : Op γ) :
    (p.words k).act? op = some ((op.act p).words (op.place p k)) := by
  cases op with
  | tick cart => exact p.tick?_words k cart h
  | read cart number => exact bind_eq (p.readRegister?_words k cart number) rfl
  | write cart number d => exact bind_eq (p.writeRegister?_words k cart number d) rfl
  | sprites page => exact p.writeSprites?_words k page
  | takeFrame => rfl
  | poll => rfl
  | reset => rfl

/-! ### What the registers keep to -/

/-- The bytes of palette memory have six bits. -/
def SixBits (p : Ppu) : Prop := ∀ (i : Nat) (hi : i < 32), p.palette[i].toNat < 0x40

theorem sixBits_powerOn : SixBits powerOn := by
  intro i hi
  have hzero : powerOn.palette[i] = 0 := Vector.getElem_replicate hi
  rw [hzero]
  decide

theorem SixBits.of_palette {p q : Ppu} (h : SixBits p) (hq : q.palette = p.palette) :
    SixBits q := by
  unfold SixBits
  rw [hq]
  exact h

theorem SixBits.writeMemory {p : Ppu} (h : SixBits p) (cart : γ) (addr : UInt16) (d : UInt8) :
    SixBits (p.writeMemory cart addr d).1 := by
  unfold Ppu.writeMemory
  dsimp only
  split_ifs
  · exact h
  · exact h
  · intro i hi
    rw [Vector.getElem_set]
    split_ifs
    · rw [UInt8.toNat_and]
      exact Nat.and_lt_two_pow (n := 6) _ (by decide)
    · exact h i hi

theorem palette_readRegister (number : UInt16) :
    (p.readRegister cart number).2.palette = p.palette := by
  unfold readRegister
  split
  next d q heq => split at heq <;> cases heq <;> rfl

theorem palette_writeSprites (page : List UInt8) : (p.writeSprites page).palette = p.palette := by
  unfold writeSprites
  induction page generalizing p with
  | nil => rfl
  | cons d page ih =>
    rw [List.foldl_cons, ih]
    rfl

theorem SixBits.writeRegister {p : Ppu} (h : SixBits p) (cart : γ) (number : UInt16) (d : UInt8) :
    SixBits (p.writeRegister cart number d).1 := by
  unfold Ppu.writeRegister
  dsimp only
  split
  · exact h
  · exact h
  · exact h
  · exact h
  · exact h
  · refine h.of_palette ?_
    unfold writeScroll
    split_ifs <;> rfl
  · refine h.of_palette ?_
    unfold writeAddr
    split_ifs <;> rfl
  · exact (SixBits.writeMemory (p := { p with openBus := d }) h cart _ d).of_palette rfl

theorem SixBits.act {p : Ppu} (h : SixBits p) (op : Op γ) : SixBits (op.act p) := by
  cases op with
  | tick cart => exact h.of_palette (congrArg Setting.palette (setting_tick p cart))
  | read cart number => exact h.of_palette (p.palette_readRegister cart number)
  | write cart number d => exact h.writeRegister cart number d
  | sprites page => exact h.of_palette (p.palette_writeSprites page)
  | takeFrame => exact h.of_palette rfl
  | poll => exact h.of_palette rfl
  | reset => exact h.of_palette rfl

theorem SixBits.run {p : Ppu} (h : SixBits p) (ops : List (Op γ)) : SixBits (p.run ops) := by
  induction ops generalizing p with
  | nil => exact h
  | cons op ops ih => exact ih (h.act op)

/-! ### Runs -/

/-- The operations of a run go through one after the other, because the beam stays in the frame. -/
theorem Timely.run?_words {p : Ppu} (h : Timely p) (k : Bool) (ops : List (Op γ)) :
    ∃ k', (p.words k).run? ops = some ((p.run ops).words k') := by
  induction ops generalizing p k with
  | nil => exact ⟨k, rfl⟩
  | cons op ops ih =>
    obtain ⟨k', hrun⟩ := ih (h.act op) (op.place p k)
    exact ⟨k', bind_eq (p.act?_words k h.inFrame op) hrun⟩

theorem Timely.inRange_words {p : Ppu} (h : Timely p) (hpalette : SixBits p) (k : Bool) :
    (p.words k).InRange where
  v_lt := p.v.toNat_lt
  t_lt := p.t.toNat_lt
  x_lt := p.fineX.isLt
  line_lt := h.inFrame.line_lt
  dot_lt := h.inFrame.dot_lt
  back_le := k.toNat_le
  palette_lt := hpalette

theorem front?_words : (p.words k).front? = some p.front := by
  have hback : (p.words k).back ^^^ 1 = (!k).toNat := Word.toNat_not k rfl
  unfold Words.front?
  rw [hback]
  cases k <;> rfl

/-- **The picture unit never stops the machine.**  From power-on, whatever is done to it, with any
cartridges whose patterns can be reached below `$2000`: every sum fits its word, every index lies in
its array, the registers keep to their ranges, and the state is that of the library's picture
unit. -/
theorem operations_checked (ops : List (Op γ)) :
    ∃ w, Words.powerOn.run? ops = some w ∧ w.InRange ∧
      w.front? = some (powerOn.run ops).front ∧ ∃ k, w = (powerOn.run ops).words k := by
  obtain ⟨k, hrun⟩ := Timely.powerOn.run?_words false ops
  exact ⟨_, hrun, (Timely.powerOn.run ops).inRange_words (sixBits_powerOn.run ops) k,
    front?_words _ k, k, rfl⟩

end Nes.Ppu
