import Nes.Proofs.Checked
import Nes.Cartridge.Basic

/-!
# Reading an image with words of 64 bits

The functions that read an image are written here once more for a machine whose words have 64 bits,
which stops when a number does not fit or a read misses the image (`Risky`).  The machine never
stops, and its answer or error is that of `Cartridge.ofBytes` (`answers_ofBytes?`).
-/

namespace Nes.Cartridge

/-- An answer or an error, or nothing where the machine stops. -/
abbrev Risky := ExceptT FormatError Option

/-- What may stop the machine. -/
def Risky.of {α : Type} (o : Option α) : Risky α := ExceptT.lift o

/-- `Header.romSize` in words: only the second form looks whether its size fits. -/
def Header.romSize? (lsb msb : UInt8) (unit : Nat) : Risky Nat :=
  if msb == 0x0F then
    let exponent := lsb.toNat / 4
    let multiplier := 2 * (lsb.toNat % 4) + 1
    match (Checked.shl 64 1 exponent).bind (Checked.mul 64 multiplier) with
    | some size => pure size
    | none => throw (.sizeOverflow exponent multiplier)
  else do
    let units ← Risky.of (Checked.add 64 (msb.toNat * 256) lsb.toNat)
    Risky.of (Checked.mul 64 units unit)

/-- `Header.shiftedSize` in words. -/
def Header.shiftedSize? (shift : UInt8) : Option Nat :=
  if shift == 0 then some 0 else Checked.shl 64 64 shift.toNat

/-- `Header.ofBytes` in words: the first 16 bytes are there to be read. -/
def Header.ofBytes? (data : Array UInt8) : Risky Header := do
  if data.size < length then throw (.tooShort data.size)
  let found := (data.extract 0 4).toList
  if found ≠ magic then throw (.badMagic found)
  let prgByte ← Risky.of data[4]?
  let chrByte ← Risky.of data[5]?
  let flags6 ← Risky.of data[6]?
  let flags7 ← Risky.of data[7]?
  let dialect : Dialect := if flags7 &&& 0x0C == 0x08 then .nes2 else .iNes
  let byte8 ← Risky.of data[8]?
  let byte9 ← Risky.of data[9]?
  let byte10 ← Risky.of data[10]?
  let byte11 ← Risky.of data[11]?
  let byte12 ← Risky.of data[12]?
  let prgSize ← match dialect with
    | .iNes => Risky.of (Checked.mul 64 prgByte.toNat prgUnit)
    | .nes2 => romSize? prgByte (byte9 &&& 0x0F) prgUnit
  let chrSize ← match dialect with
    | .iNes => Risky.of (Checked.mul 64 chrByte.toNat chrUnit)
    | .nes2 => romSize? chrByte (byte9 >>> 4) chrUnit
  let number := flags7.toNat / 16 * 16 + flags6.toNat / 16
  let mapperId := match dialect with
    | .nes2 => (byte8 &&& 0x0F).toNat * 256 + number
    | .iNes => if (data.extract 12 16).any (· != 0) then number % 16 else number
  let mirroring : Mirroring :=
    if flags6 &&& 0x08 != 0 then
      if mapperId == 2 && flags6 &&& 0x01 == 0 then .oneScreenLower else .fourScreen
    else if flags6 &&& 0x01 != 0 then .vertical else .horizontal
  let prgRamSize ← Risky.of <| match dialect with
    | .nes2 => shiftedSize? (max (byte10 &&& 0x0F) (byte10 >>> 4))
    | .iNes => if byte8 == 0 then some prgRamUnit else Checked.mul 64 byte8.toNat prgRamUnit
  let chrRamSize ← Risky.of <| match dialect with
    | .nes2 => if byte11 &&& 0x0F != 0 then shiftedSize? (byte11 &&& 0x0F) else some chrUnit
    | .iNes => some chrUnit
  return {
    dialect, prgSize, chrSize, mapperId, mirroring, prgRamSize, chrRamSize
    hasTrainer := flags6 &&& 0x04 != 0
    submapper := match dialect with
      | .nes2 => (byte8 >>> 4).toNat
      | .iNes => 0
    tvSystem := match dialect with
      | .nes2 => if byte12 &&& 0x03 == 1 then .pal else .ntsc
      | .iNes => if byte9 &&& 0x01 != 0 then .pal else .ntsc
    battery := flags6 &&& 0x02 != 0 }

/-- `part` in words: an end past the last word is an end past the last byte. -/
def part? (data : Array UInt8) (which : Part) (offset length : Nat) : Risky (Array UInt8) :=
  match Checked.add 64 offset length with
  | some stop =>
    if stop ≤ data.size then pure (data.extract offset stop)
    else throw (.missing which length offset data.size)
  | none => throw (.missing which length offset data.size)

/-- `ofBytes` in words: an offset runs along the image. -/
def ofBytes? (data : Array UInt8) : Risky Cartridge := do
  let h ← Header.ofBytes? data
  let trainer ←
    if h.hasTrainer then some <$> part? data .trainer Header.length trainerLength else pure none
  let offset ← Risky.of <|
    if h.hasTrainer then Checked.add 64 Header.length trainerLength else some Header.length
  let prgRom ← part? data .prgRom offset h.prgSize
  let offset ← Risky.of <| Checked.add 64 offset h.prgSize
  if h.prgSize = 0 then throw .noPrgRom
  let chr ←
    if h.chrSize = 0 then pure (Array.replicate h.chrRamSize 0)
    else part? data .chrRom offset h.chrSize
  let offset ← Risky.of <| if h.chrSize = 0 then some offset else Checked.add 64 offset h.chrSize
  let miscRom ← Risky.of <| match h.dialect with
    | .nes2 => if offset ≤ data.size then some (data.extract offset data.size) else none
    | .iNes => some #[]
  return {
    prgRom, chr, trainer, miscRom
    chrIsRam := h.chrSize == 0
    mirroring := h.mirroring
    mapperId := h.mapperId
    submapper := h.submapper
    tvSystem := h.tvSystem
    dialect := h.dialect
    battery := h.battery
    prgRamSize := h.prgRamSize }

/-- The machine does not stop, and answers this. -/
def Answers {α : Type} (x : Risky α) (y : Except FormatError α) : Prop := x.run = some y

theorem Answers.of_bind {α β : Type} {o : Option α} {a : α} {f : α → Risky β}
    {y : Except FormatError β} (ho : o = some a) (h : Answers (f a) y) :
    Answers (Risky.of o >>= f) y := by
  subst ho
  exact h

theorem Answers.bind {α β : Type} {x : Risky α} {f : α → Risky β} {y : Except FormatError α}
    {g : α → Except FormatError β} (hx : Answers x y) (h : ∀ a, y = .ok a → Answers (f a) (g a)) :
    Answers (x >>= f) (y >>= g) := by
  unfold Answers at hx ⊢
  rw [ExceptT.run_bind, hx]
  cases y with
  | error e => rfl
  | ok a => exact h a rfl

theorem romSize?_answers {lsb msb : UInt8} {unit : Nat} (hmsb : msb.toNat < 16)
    (hunit : unit ≤ 16384) :
    Answers (Header.romSize? lsb msb unit) (Header.romSize lsb msb unit) := by
  have hlsb := lsb.toNat_lt
  unfold Header.romSize? Header.romSize
  split
  · have hshl : Checked.shl 64 1 (lsb.toNat / 4) = some (1 <<< (lsb.toNat / 4)) := by
      refine Checked.shl_eq (by omega) ?_
      rw [Nat.one_shiftLeft]
      exact Nat.pow_lt_pow_right (by decide) (by omega)
    simp only [hshl, Option.bind_some, Checked.mul, Checked.word, Nat.shiftLeft_eq, Nat.one_mul,
      Header.sizeBound]
    by_cases h : (2 * (lsb.toNat % 4) + 1) * 2 ^ (lsb.toNat / 4) < 2 ^ 64
    · simp only [h, ↓reduceIte]
      rfl
    · simp only [h, ↓reduceIte]
      rfl
  · have hunits : msb.toNat * 256 + lsb.toNat < 2 ^ 12 := by omega
    refine .of_bind (Checked.add_eq (by omega)) ?_
    have hlt : (msb.toNat * 256 + lsb.toNat) * unit < 2 ^ 64 :=
      calc (msb.toNat * 256 + lsb.toNat) * unit
          ≤ 4096 * 16384 := Nat.mul_le_mul (by omega) hunit
        _ < 2 ^ 64 := by decide
    rw [Checked.mul_eq hlt]
    rfl

theorem shifted_lt {shift : UInt8} (h : shift.toNat < 16) : 64 <<< shift.toNat < 2 ^ 64 :=
  calc 64 <<< shift.toNat = 64 * 2 ^ shift.toNat := Nat.shiftLeft_eq _ _
    _ ≤ 64 * 2 ^ 15 := Nat.mul_le_mul_left _ (Nat.pow_le_pow_right (by decide) (by omega))
    _ < 2 ^ 64 := by decide

theorem shiftedSize?_eq {shift : UInt8} (h : shift.toNat < 16) :
    Header.shiftedSize? shift = some (Header.shiftedSize shift) := by
  unfold Header.shiftedSize? Header.shiftedSize
  split
  · rfl
  · exact Checked.shl_eq (by omega) (shifted_lt h)

theorem low4_lt (v : UInt8) : (v &&& 0x0F).toNat < 16 := by
  rw [UInt8.toNat_and]
  exact Nat.lt_of_le_of_lt Nat.and_le_right (by decide)

theorem high4_lt (v : UInt8) : (v >>> 4).toNat < 16 := by
  have := v.toNat_lt
  rw [UInt8.toNat_shiftRight]
  exact Nat.lt_of_le_of_lt (Nat.le_of_eq (Nat.shiftRight_eq_div_pow _ 4)) (by omega)

theorem getElem?_of_lt {data : Array UInt8} {i : Nat} (h : i < data.size) :
    data[i]? = some (data.getD i 0) := by
  simp [h, Array.getD]

theorem header_answers (data : Array UInt8) :
    Answers (Header.ofBytes? data) (Header.ofBytes data) := by
  unfold Header.ofBytes? Header.ofBytes
  by_cases hsize : data.size < Header.length
  · simp only [hsize, ↓reduceIte]
    rfl
  by_cases hmagic : (data.extract 0 4).toList = Header.magic
  case neg =>
    simp only [hsize, hmagic, ne_eq, not_false_iff, ↓reduceIte]
    rfl
  have hbyte {i : Nat} (hi : i < 16) : data[i]? = some (data.getD i 0) :=
    getElem?_of_lt (Nat.lt_of_lt_of_le hi (Nat.not_lt.1 hsize))
  have hmul (v : UInt8) {unit : Nat} (hunit : unit ≤ 16384) : v.toNat * unit < 2 ^ 64 :=
    calc v.toNat * unit ≤ 256 * 16384 := Nat.mul_le_mul (Nat.le_of_lt v.toNat_lt) hunit
      _ < 2 ^ 64 := by decide
  simp only [hsize, hmagic, ne_eq, not_true, ↓reduceIte]
  refine .of_bind (hbyte (by decide)) <| .of_bind (hbyte (by decide)) <|
    .of_bind (hbyte (by decide)) <| .of_bind (hbyte (by decide)) <|
    .of_bind (hbyte (by decide)) <| .of_bind (hbyte (by decide)) <|
    .of_bind (hbyte (by decide)) <| .of_bind (hbyte (by decide)) <|
    .of_bind (hbyte (by decide)) ?_
  generalize (if (data.getD 7 0 &&& 0x0C == 0x08) = true then Dialect.nes2 else Dialect.iNes) = d
  cases d with
  | iNes =>
    have hram : (if (data.getD 8 0 == 0) = true then some Header.prgRamUnit
          else Checked.mul 64 (data.getD 8 0).toNat Header.prgRamUnit) =
        some (if (data.getD 8 0 == 0) = true then Header.prgRamUnit
          else (data.getD 8 0).toNat * Header.prgRamUnit) := by
      rw [Checked.mul_eq (hmul _ (by decide)), apply_ite some]
    exact .of_bind (Checked.mul_eq (hmul _ (by decide))) <|
      .of_bind (Checked.mul_eq (hmul _ (by decide))) <| .of_bind hram <| .of_bind rfl rfl
  | nes2 =>
    have hmax : (max (data.getD 10 0 &&& 0x0F) (data.getD 10 0 >>> 4)).toNat < 16 := by
      show (if _ then _ else _ : UInt8).toNat < 16
      split
      · exact high4_lt _
      · exact low4_lt _
    have hram : (if (data.getD 11 0 &&& 0x0F != 0) = true then
          Header.shiftedSize? (data.getD 11 0 &&& 0x0F) else some Header.chrUnit) =
        some (if (data.getD 11 0 &&& 0x0F != 0) = true then
          Header.shiftedSize (data.getD 11 0 &&& 0x0F) else Header.chrUnit) := by
      rw [shiftedSize?_eq (low4_lt _), apply_ite some]
    exact .bind (romSize?_answers (low4_lt _) (by decide)) fun prgSize _ =>
      .bind (romSize?_answers (high4_lt _) (by decide)) fun chrSize _ =>
        .of_bind (shiftedSize?_eq hmax) <| .of_bind hram rfl

theorem part?_answers {data : Array UInt8} (hdata : data.size < 2 ^ 64) (which : Part)
    (offset length : Nat) :
    Answers (part? data which offset length) (part data which offset length) := by
  unfold part? part Checked.add Checked.word
  by_cases hfit : offset + length ≤ data.size
  · simp only [Nat.lt_of_le_of_lt hfit hdata, hfit, ↓reduceIte]
    rfl
  · by_cases hword : offset + length < 2 ^ 64
    · simp only [hword, hfit, ↓reduceIte]
      rfl
    · simp only [hword, hfit, ↓reduceIte]
      rfl

theorem le_of_part {data : Array UInt8} {which : Part} {offset length : Nat} {bytes : Array UInt8}
    (h : part data which offset length = .ok bytes) : offset + length ≤ data.size := by
  unfold part at h
  split at h
  · assumption
  · cases h

/-- Both computations choose in the same way what to go on with. -/
theorem Answers.ite_bind {α β : Type} {c : Prop} [Decidable c] {x₁ x₂ : Risky α}
    {y₁ y₂ : Except FormatError α} {f : α → Risky β} {g : α → Except FormatError β}
    (h₁ : Answers x₁ y₁) (h₂ : Answers x₂ y₂)
    (h : ∀ a, (if c then y₁ else y₂) = .ok a → Answers (f a) (g a)) :
    Answers (if c then x₁ >>= f else x₂ >>= f) (if c then y₁ >>= g else y₂ >>= g) := by
  split
  · next hc => exact h₁.bind fun a ha => h a ((if_pos hc).trans ha)
  · next hc => exact h₂.bind fun a ha => h a ((if_neg hc).trans ha)

theorem Answers.map {α β : Type} {x : Risky α} {y : Except FormatError α} {f : α → β}
    (hx : Answers x y) : Answers (f <$> x) (f <$> y) := by
  unfold Answers at hx ⊢
  rw [ExceptT.run_map, hx]
  rfl

theorem answers_ofBytes? {data : Array UInt8} (hdata : data.size < 2 ^ 64) :
    Answers (ofBytes? data) (ofBytes data) := by
  unfold ofBytes? ofBytes
  refine .bind (header_answers data) fun h _ => ?_
  refine .ite_bind (part?_answers hdata ..).map rfl fun trainer _ => ?_
  have hstart : (if h.hasTrainer = true then Checked.add 64 Header.length trainerLength
      else some Header.length) =
        some (Header.length + if h.hasTrainer = true then trainerLength else 0) := by
    split
    · exact Checked.add_eq (by decide)
    · rfl
  refine .of_bind hstart ?_
  generalize (Header.length + if h.hasTrainer = true then trainerLength else 0) = prgStart
  refine .bind (part?_answers hdata ..) fun prgRom hprg => ?_
  have hprgFits := le_of_part hprg
  refine .of_bind (Checked.add_eq (Nat.lt_of_le_of_lt hprgFits hdata)) ?_
  by_cases hP : h.prgSize = 0
  · simp only [hP, ↓reduceIte]
    rfl
  simp only [hP, ↓reduceIte]
  refine .ite_bind rfl (part?_answers hdata ..) fun chr hchr => ?_
  have hchrFits : prgStart + h.prgSize + h.chrSize ≤ data.size := by
    split at hchr
    · omega
    · exact le_of_part hchr
  have hstop : (if h.chrSize = 0 then some (prgStart + h.prgSize)
      else Checked.add 64 (prgStart + h.prgSize) h.chrSize) =
        some (prgStart + h.prgSize + h.chrSize) := by
    split
    · next hC => rw [hC, Nat.add_zero]
    · exact Checked.add_eq (Nat.lt_of_le_of_lt hchrFits hdata)
  refine .of_bind hstop ?_
  cases h.dialect with
  | iNes => exact .of_bind rfl rfl
  | nes2 => exact .of_bind (if_pos hchrFits) rfl

end Nes.Cartridge
