import Nes.Proofs.Cartridge.Checked

/-!
# Images are cut without loss

What a header declares is read off its bytes here once more, in plain arithmetic and without any
bound: the lengths of the trainer, the program and the patterns (`trainerLength`, `prgLength`,
`chrLength`).  An image is `WellFormed` if it starts with a header, declares a program and lengths
that are numbers of 64 bits, and has room for all that it declares.

`ofBytes` accepts exactly the well-formed images, and the parts of the cartridge are those of the
image, one after the other (`ofBytes_wellFormed`).  The proof goes through `cut`, the cartridge that
a header makes of an image: `ofBytes_eq_ok` says when it is the answer, and `Parts.eq_of_bytes` that
the lengths alone determine how an image is cut.
-/

namespace Nes.Cartridge

namespace Image

/-! ### What a header declares -/

/-- A byte of an image, as a number. -/
def byteAt (data : Array UInt8) (i : Nat) : Nat := (data.getD i 0).toNat

/-- The dialect, told by bits 2 and 3 of byte 7. -/
def dialect (data : Array UInt8) : Dialect := if byteAt data 7 / 4 % 4 = 2 then .nes2 else .iNes

/-- The length that the newer dialect declares by eight and four bits. -/
def declared (lsb msb unit : Nat) : Nat :=
  if msb = 15 then 2 ^ (lsb / 4) * (2 * (lsb % 4) + 1) else (256 * msb + lsb) * unit

/-- The declared length of the program. -/
def prgLength (data : Array UInt8) : Nat :=
  match dialect data with
  | .iNes => byteAt data 4 * 16384
  | .nes2 => declared (byteAt data 4) (byteAt data 9 % 16) 16384

/-- The declared length of the patterns. -/
def chrLength (data : Array UInt8) : Nat :=
  match dialect data with
  | .iNes => byteAt data 5 * 8192
  | .nes2 => declared (byteAt data 5) (byteAt data 9 / 16) 8192

/-- The length of the trainer, announced by bit 2 of byte 6. -/
def trainerLength (data : Array UInt8) : Nat := if byteAt data 6 / 4 % 2 = 1 then 512 else 0

/-- The image starts as a header does. -/
structure Headed (data : Array UInt8) : Prop where
  /-- There are as many bytes as a header has. -/
  size : 16 ≤ data.size
  /-- The first four of them are those of every header. -/
  magic : (data.extract 0 4).toList = [0x4E, 0x45, 0x53, 0x1A]
  /-- The length of the program is a number of 64 bits. -/
  prg_lt : prgLength data < 2 ^ 64
  /-- So is that of the patterns. -/
  chr_lt : chrLength data < 2 ^ 64

/-- The image has a header, a program, and room for all that is declared. -/
structure WellFormed (data : Array UInt8) : Prop extends Headed data where
  /-- There is a program. -/
  prg_pos : 0 < prgLength data
  /-- The parts fit. -/
  fits : 16 + trainerLength data + prgLength data + chrLength data ≤ data.size

/-- The parts of an image. -/
structure Parts where
  /-- The header. -/
  header : Array UInt8
  /-- The trainer, empty if there is none. -/
  trainer : Array UInt8
  /-- The program. -/
  prgRom : Array UInt8
  /-- The patterns, empty for a cartridge with pattern memory. -/
  chrRom : Array UInt8
  /-- What follows. -/
  rest : Array UInt8

namespace Parts

/-- The image with these parts. -/
def bytes (p : Parts) : Array UInt8 := p.header ++ p.trainer ++ p.prgRom ++ p.chrRom ++ p.rest

/-- The parts are as long as the header declares. -/
structure Fitting (p : Parts) : Prop where
  /-- The header has 16 bytes. -/
  header : p.header.size = 16
  /-- The trainer has the length declared. -/
  trainer : p.trainer.size = trainerLength p.header
  /-- The program has the length declared. -/
  prgRom : p.prgRom.size = prgLength p.header
  /-- The patterns have the length declared. -/
  chrRom : p.chrRom.size = chrLength p.header

end Parts

/-- The cartridge has the given parts; without patterns it has zeroed pattern memory instead. -/
structure Holds (cart : Cartridge) (p : Parts) : Prop where
  /-- The dialect is that of the header. -/
  dialect : cart.dialect = dialect p.header
  /-- The trainer. -/
  trainer : cart.trainer = if trainerLength p.header = 0 then none else some p.trainer
  /-- The program. -/
  prgRom : cart.prgRom = p.prgRom
  /-- The patterns are memory if the header declares none. -/
  chrIsRam : cart.chrIsRam = decide (chrLength p.header = 0)
  /-- The patterns. -/
  chr : if chrLength p.header = 0 then ∃ n > 0, cart.chr = .replicate n 0 else cart.chr = p.chrRom
  /-- Only the newer dialect keeps what follows. -/
  miscRom : cart.miscRom = match cart.dialect with | .nes2 => p.rest | .iNes => #[]

/-! ### Reading the header -/

theorem forall_byte {P : UInt8 → Prop} (h : ∀ n < 256, P (.ofNat n)) (v : UInt8) : P v := by
  have hv := h v.toNat v.toNat_lt
  rwa [UInt8.ofNat_toNat] at hv

theorem dialect_eq (data : Array UInt8) :
    dialect data = if data.getD 7 0 &&& 0x0C == 0x08 then .nes2 else .iNes := by
  have hbits : ∀ v : UInt8, v.toNat / 4 % 4 = 2 ↔ (v &&& 0x0C == 0x08) = true :=
    forall_byte (by decide +kernel)
  simp only [dialect, byteAt, hbits]

theorem trainerLength_eq (data : Array UInt8) :
    trainerLength data = if data.getD 6 0 &&& 0x04 != 0 then 512 else 0 := by
  have hbits : ∀ v : UInt8, v.toNat / 4 % 2 = 1 ↔ (v &&& 0x04 != 0) = true :=
    forall_byte (by decide +kernel)
  simp only [trainerLength, byteAt, hbits]

theorem toNat_low4 (v : UInt8) : (v &&& 0x0F).toNat = v.toNat % 16 := by
  rw [UInt8.toNat_and]
  exact Nat.and_two_pow_sub_one_eq_mod _ 4

theorem toNat_high4 (v : UInt8) : (v >>> 4).toNat = v.toNat / 16 := by
  rw [UInt8.toNat_shiftRight]
  exact Nat.shiftRight_eq_div_pow _ 4

/-- A size is read exactly, or refused if it is no number of 64 bits. -/
theorem romSize_eq (lsb : UInt8) {msb : UInt8} {unit : Nat} (hmsb : msb.toNat < 16)
    (hunit : unit ≤ 16384) :
    Header.romSize lsb msb unit =
      if declared lsb.toNat msb.toNat unit < 2 ^ 64 then .ok (declared lsb.toNat msb.toNat unit)
      else .error (.sizeOverflow (lsb.toNat / 4) (2 * (lsb.toNat % 4) + 1)) := by
  have hlsb := lsb.toNat_lt
  have h15 : (msb == 0x0F) = decide (msb.toNat = 15) := by
    rw [Bool.eq_iff_iff, beq_iff_eq, decide_eq_true_iff, ← UInt8.toNat_inj]
    rfl
  unfold Header.romSize declared
  by_cases h : msb.toNat = 15
  · simp only [h15, h, decide_true, ↓reduceIte, Header.sizeBound, Nat.shiftLeft_eq, Nat.one_mul,
      Nat.mul_comm]
  · have hlt : (256 * msb.toNat + lsb.toNat) * unit < 2 ^ 64 :=
      calc (256 * msb.toNat + lsb.toNat) * unit
          ≤ 4096 * 16384 := Nat.mul_le_mul (by omega) hunit
        _ < 2 ^ 64 := by decide
    simp only [h15, h, decide_false, Bool.false_eq_true, ↓reduceIte, hlt, Nat.mul_comm _ 256]

theorem shiftedSize_pos {shift : UInt8} (h : shift ≠ 0) : 0 < Header.shiftedSize shift := by
  simp only [Header.shiftedSize, beq_iff_eq, h, ↓reduceIte, Nat.shiftLeft_eq]
  exact Nat.mul_pos (by decide) (Nat.two_pow_pos _)

theorem shiftedSize_lt {shift : UInt8} (h : shift.toNat < 16) :
    Header.shiftedSize shift < 2 ^ 64 := by
  unfold Header.shiftedSize
  split
  · decide
  · exact shifted_lt h

/-- The header says what is declared. -/
structure Describes (h : Header) (data : Array UInt8) : Prop where
  /-- The dialect. -/
  dialect : h.dialect = dialect data
  /-- The length of the program. -/
  prgSize : h.prgSize = prgLength data
  /-- The length of the patterns. -/
  chrSize : h.chrSize = chrLength data
  /-- The trainer. -/
  hasTrainer : h.hasTrainer = decide (trainerLength data ≠ 0)
  /-- Pattern memory is never empty. -/
  chrRamSize_pos : 0 < h.chrRamSize
  /-- Its length is a number of 64 bits. -/
  chrRamSize_lt : h.chrRamSize < 2 ^ 64

/-- A header is read if the image has one, and says what is declared. -/
def Read (data : Array UInt8) : Except FormatError Header → Prop
  | .ok h => Headed data ∧ Describes h data
  | .error _ => ¬ Headed data

theorem hasTrainer_eq (data : Array UInt8) :
    (data.getD 6 0 &&& 0x04 != 0) = decide (trainerLength data ≠ 0) := by
  rw [trainerLength_eq]
  cases data.getD 6 0 &&& 0x04 != 0 <;> rfl

theorem byteAt_lt (data : Array UInt8) (i : Nat) : byteAt data i < 256 := (data.getD i 0).toNat_lt

theorem read_header (data : Array UInt8) : Read data (Header.ofBytes data) := by
  unfold Header.ofBytes
  simp only [bind, Except.bind, pure, Except.pure, throw, throwThe, MonadExceptOf.throw]
  split
  · next hsize => exact fun h => absurd h.size (Nat.not_le.2 hsize)
  next hsize =>
  split
  · next hmagic => exact fun h => hmagic h.magic
  next hmagic =>
  rw [← dialect_eq]
  cases hd : dialect data with
  | iNes =>
    have hprg : prgLength data = byteAt data 4 * 16384 := by simp only [prgLength, hd]
    have hchr : chrLength data = byteAt data 5 * 8192 := by simp only [chrLength, hd]
    have h4 := byteAt_lt data 4
    have h5 := byteAt_lt data 5
    exact ⟨⟨Nat.not_lt.1 hsize, Decidable.not_not.1 hmagic, by omega, by omega⟩,
      ⟨hd.symm, hprg.symm, hchr.symm, hasTrainer_eq data, (by decide : 0 < Header.chrUnit),
        (by decide : Header.chrUnit < 2 ^ 64)⟩⟩
  | nes2 =>
    have hprg := romSize_eq (data.getD 4 0) (low4_lt (data.getD 9 0))
      (by decide : Header.prgUnit ≤ 16384)
    have hchr := romSize_eq (data.getD 5 0) (high4_lt (data.getD 9 0))
      (by decide : Header.chrUnit ≤ 16384)
    have hprgLength : declared (data.getD 4 0).toNat (data.getD 9 0 &&& 0x0F).toNat
        Header.prgUnit = prgLength data := by
      simp only [prgLength, hd, toNat_low4]
      rfl
    have hchrLength : declared (data.getD 5 0).toNat (data.getD 9 0 >>> 4).toNat
        Header.chrUnit = chrLength data := by
      simp only [chrLength, hd, toNat_high4]
      rfl
    rw [hprgLength] at hprg
    rw [hchrLength] at hchr
    have hram : 0 < (if data.getD 11 0 &&& 0x0F != 0 then
          Header.shiftedSize (data.getD 11 0 &&& 0x0F) else Header.chrUnit) ∧
        (if data.getD 11 0 &&& 0x0F != 0 then
          Header.shiftedSize (data.getD 11 0 &&& 0x0F) else Header.chrUnit) < 2 ^ 64 := by
      split
      · next hne => exact ⟨shiftedSize_pos (bne_iff_ne.1 hne), shiftedSize_lt (low4_lt _)⟩
      · decide
    simp only [hprg, hchr]
    by_cases hp : prgLength data < 2 ^ 64
    · by_cases hc : chrLength data < 2 ^ 64
      · simp only [hp, hc, ↓reduceIte]
        exact ⟨⟨Nat.not_lt.1 hsize, Decidable.not_not.1 hmagic, hp, hc⟩,
          ⟨hd.symm, rfl, rfl, hasTrainer_eq data, hram.1, hram.2⟩⟩
      · simp only [hp, hc, ↓reduceIte]
        exact fun h => hc h.chr_lt
    · simp only [hp, ↓reduceIte]
      exact fun h => hp h.prg_lt

/-! ### Cutting an image -/

/-- The parts of an image, as long as it declares. -/
def parts (data : Array UInt8) : Parts :=
  let prg := 16 + trainerLength data
  let chr := prg + prgLength data
  let rest := chr + chrLength data
  { header := data.extract 0 16
    trainer := data.extract 16 prg
    prgRom := data.extract prg chr
    chrRom := data.extract chr rest
    rest := data.extract rest data.size }

/-- The cartridge that a header makes of the parts of an image. -/
def cut (h : Header) (p : Parts) : Cartridge where
  prgRom := p.prgRom
  chr := if h.chrSize = 0 then .replicate h.chrRamSize 0 else p.chrRom
  chrIsRam := h.chrSize == 0
  trainer := if h.hasTrainer then some p.trainer else none
  mirroring := h.mirroring
  mapperId := h.mapperId
  submapper := h.submapper
  tvSystem := h.tvSystem
  dialect := h.dialect
  battery := h.battery
  prgRamSize := h.prgRamSize
  miscRom := match h.dialect with | .nes2 => p.rest | .iNes => #[]

theorem bind_eq_ok {ε α β : Type} {x : Except ε α} {f : α → Except ε β} {b : β} :
    x >>= f = .ok b ↔ ∃ a, x = .ok a ∧ f a = .ok b := by
  cases x <;> simp [bind, Except.bind]

theorem part_eq_ok {data : Array UInt8} {which : Part} {offset length : Nat} {bytes : Array UInt8} :
    part data which offset length = .ok bytes ↔
      offset + length ≤ data.size ∧ data.extract offset (offset + length) = bytes := by
  unfold part
  split
  · next h => simp only [Except.ok.injEq, h, true_and]
  · next h => simp only [reduceCtorEq, h, false_and]

theorem trainerLength_cases (data : Array UInt8) :
    trainerLength data = 0 ∨ trainerLength data = 512 := by
  unfold trainerLength
  split
  · exact Or.inr rfl
  · exact Or.inl rfl

/-- An image is cut if its parts fit, and refused otherwise. -/
theorem ofBytes_eq_ok {data : Array UInt8} {h : Header} (hh : Header.ofBytes data = .ok h)
    (hd : Describes h data) (cart : Cartridge) :
    ofBytes data = .ok cart ↔
      (0 < prgLength data ∧
        16 + trainerLength data + prgLength data + chrLength data ≤ data.size) ∧
          cut h (parts data) = cart := by
  obtain ⟨-, hprg, hchr, htrainer, -, -⟩ := hd
  unfold ofBytes cut parts
  rw [hh]
  rcases trainerLength_cases data with ht | ht <;>
    by_cases hP : prgLength data = 0 <;>
    by_cases hC : chrLength data = 0 <;>
    simp only [htrainer, hprg, hchr, ht, hP, hC, bind_map_left, bind_eq_ok, part_eq_ok,
      Header.length, Cartridge.trainerLength, pure, Except.pure, throw, throwThe,
      MonadExceptOf.throw, Except.ok.injEq, exists_eq_left', exists_and_left, exists_const,
      and_assoc, false_and, and_false, ne_eq, not_true_eq_false, not_false_eq_true, decide_false,
      decide_true, Bool.false_eq_true, reduceCtorEq, BEq.rfl, ↓reduceIte, Nat.add_zero,
      Nat.reduceAdd, Nat.lt_irrefl]
  -- The same cartridge on both sides; the parts that fit one by one fit together.
  all_goals
    simp only [← and_assoc]
    exact and_congr_left fun _ => by omega

/-! ### The first bytes -/

theorem getD_append {data : Array UInt8} (more : Array UInt8) {i : Nat} (hi : i < data.size) :
    (data ++ more).getD i 0 = data.getD i 0 := by
  simp only [Array.getD_eq_getD_getElem?, Array.getElem?_append_left hi]

theorem extract_append {data : Array UInt8} (more : Array UInt8) {i j : Nat} (hj : j ≤ data.size) :
    (data ++ more).extract i j = data.extract i j := by
  simp [Array.extract_append, Nat.sub_eq_zero_of_le hj]

theorem header_append {data : Array UInt8} (more : Array UInt8) (h : 16 ≤ data.size) :
    Header.ofBytes (data ++ more) = Header.ofBytes data := by
  have hbyte (i : Nat) (hi : i < 16) : (data ++ more).getD i 0 = data.getD i 0 :=
    getD_append more (by omega)
  have hsize : ¬ (data ++ more).size < 16 := by
    rw [Array.size_append]
    omega
  have hfirst (i j : Nat) (hj : j ≤ 16) : (data ++ more).extract i j = data.extract i j :=
    extract_append more (by omega)
  simp only [Header.ofBytes, Header.length, hsize, Nat.not_lt.2 h, ↓reduceIte, hbyte, hfirst,
    Nat.reduceLT, Nat.reduceLeDiff, Nat.le_refl]

theorem byteAt_append {data : Array UInt8} (more : Array UInt8) (h : 16 ≤ data.size) {i : Nat}
    (hi : i < 16) : byteAt (data ++ more) i = byteAt data i := by
  rw [byteAt, getD_append more (by omega), byteAt]

theorem dialect_append {data : Array UInt8} (more : Array UInt8) (h : 16 ≤ data.size) :
    dialect (data ++ more) = dialect data := by
  simp only [dialect, byteAt_append more h, Nat.reduceLT]

theorem trainerLength_append {data : Array UInt8} (more : Array UInt8) (h : 16 ≤ data.size) :
    trainerLength (data ++ more) = trainerLength data := by
  simp only [trainerLength, byteAt_append more h, Nat.reduceLT]

theorem prgLength_append {data : Array UInt8} (more : Array UInt8) (h : 16 ≤ data.size) :
    prgLength (data ++ more) = prgLength data := by
  simp only [prgLength, dialect_append more h, byteAt_append more h, Nat.reduceLT]

theorem chrLength_append {data : Array UInt8} (more : Array UInt8) (h : 16 ≤ data.size) :
    chrLength (data ++ more) = chrLength data := by
  simp only [chrLength, dialect_append more h, byteAt_append more h, Nat.reduceLT]

/-! ### An image and its parts -/

theorem extract_glue {data : Array UInt8} {i j k : Nat} (hij : i ≤ j) (hjk : j ≤ k) :
    data.extract i j ++ data.extract j k = data.extract i k := by
  rw [Array.extract_append_extract, Nat.min_eq_left hij, Nat.max_eq_right hjk]

theorem bytes_parts {data : Array UInt8}
    (h : 16 + trainerLength data + prgLength data + chrLength data ≤ data.size) :
    (parts data).bytes = data := by
  simp only [Parts.bytes, parts]
  rw [extract_glue, extract_glue, extract_glue, extract_glue, Array.extract_size]
  all_goals omega

theorem fitting_parts {data : Array UInt8}
    (h : 16 + trainerLength data + prgLength data + chrLength data ≤ data.size) :
    (parts data).Fitting := by
  have hheader : (parts data).header.size = 16 := by
    simp only [parts, Array.size_extract]
    omega
  have hdata : (parts data).header ++ ((parts data).trainer ++ (parts data).prgRom ++
      (parts data).chrRom ++ (parts data).rest) = data := by
    simpa only [Parts.bytes, Array.append_assoc] using bytes_parts h
  have hle := Nat.le_of_eq hheader.symm
  constructor
  · exact hheader
  · rw [← trainerLength_append _ hle, hdata]
    simp only [parts, Array.size_extract]
    omega
  · rw [← prgLength_append _ hle, hdata]
    simp only [parts, Array.size_extract]
    omega
  · rw [← chrLength_append _ hle, hdata]
    simp only [parts, Array.size_extract]
    omega

/-- Parts that fit can be told apart by their lengths. -/
theorem Parts.eq_of_bytes {p q : Parts} (hp : p.Fitting) (hq : q.Fitting)
    (h : p.bytes = q.bytes) : p = q := by
  simp only [Parts.bytes, Array.append_assoc] at h
  obtain ⟨hheader, h⟩ := Array.append_inj h (hp.header.trans hq.header.symm)
  obtain ⟨htrainer, h⟩ := Array.append_inj h (by rw [hp.trainer, hq.trainer, hheader])
  obtain ⟨hprg, h⟩ := Array.append_inj h (by rw [hp.prgRom, hq.prgRom, hheader])
  obtain ⟨hchr, hrest⟩ := Array.append_inj h (by rw [hp.chrRom, hq.chrRom, hheader])
  cases p
  cases q
  simp_all only

/-- The header of an image that its parts make declares what the header part does. -/
theorem Parts.Fitting.declares {p : Parts} (hp : p.Fitting) :
    dialect p.bytes = dialect p.header ∧ trainerLength p.bytes = trainerLength p.header ∧
      prgLength p.bytes = prgLength p.header ∧ chrLength p.bytes = chrLength p.header := by
  have h := Nat.le_of_eq hp.header.symm
  simp only [Parts.bytes, Array.append_assoc]
  exact ⟨dialect_append _ h, trainerLength_append _ h, prgLength_append _ h, chrLength_append _ h⟩

theorem holds_cut {data : Array UInt8} {h : Header} (hd : Describes h data) {p : Parts}
    (hp : p.Fitting) (hdata : p.bytes = data) : Holds (cut h p) p := by
  obtain ⟨hdialect, htrainer, -, hchr⟩ := hp.declares
  rw [hdata] at hdialect htrainer hchr
  constructor
  · exact hd.dialect.trans hdialect
  · simp [cut, hd.hasTrainer, htrainer]
  · rfl
  · simp only [cut, hd.chrSize, hchr]
    rfl
  · simp only [cut, hd.chrSize, hchr]
    split
    · exact ⟨_, hd.chrRamSize_pos, rfl⟩
    · rfl
  · rfl

/-! ### Which images are accepted, and what they hold -/

theorem wellFormed_of_ofBytes {data : Array UInt8} {cart : Cartridge}
    (h : ofBytes data = .ok cart) : WellFormed data := by
  cases hh : Header.ofBytes data with
  | error e => simp [ofBytes, hh, bind, Except.bind] at h
  | ok header =>
    have hread := read_header data
    rw [hh] at hread
    obtain ⟨⟨hpos, hfits⟩, -⟩ := (ofBytes_eq_ok hh hread.2 cart).1 h
    exact { hread.1 with prg_pos := hpos, fits := hfits }

theorem ofBytes_parts {data : Array UInt8} (h : WellFormed data) :
    ∃ header, Header.ofBytes data = .ok header ∧ Describes header data ∧
      ofBytes data = .ok (cut header (parts data)) := by
  have hread := read_header data
  cases hh : Header.ofBytes data with
  | error e =>
    rw [hh] at hread
    exact absurd h.toHeaded hread
  | ok header =>
    rw [hh] at hread
    exact ⟨header, rfl, hread.2, (ofBytes_eq_ok hh hread.2 _).2 ⟨⟨h.prg_pos, h.fits⟩, rfl⟩⟩

/-- An accepted image has a program and patterns, of lengths that are numbers of 64 bits, and its
trainer has 512 bytes. -/
theorem sizes_of_ofBytes {data : Array UInt8} {cart : Cartridge} (h : ofBytes data = .ok cart) :
    (0 < cart.prgRom.size ∧ cart.prgRom.size < 2 ^ 64) ∧
    (0 < cart.chr.size ∧ cart.chr.size < 2 ^ 64) ∧
    ∀ t, cart.trainer = some t → t.size = 512 := by
  have hwell := wellFormed_of_ofBytes h
  obtain ⟨header, -, hd, hcut⟩ := ofBytes_parts hwell
  obtain rfl : cut header (parts data) = cart := Except.ok.inj (hcut.symm.trans h)
  have hfitting := fitting_parts hwell.fits
  obtain ⟨-, htrainer, hprg, hchr⟩ := hfitting.declares
  rw [bytes_parts hwell.fits] at htrainer hprg hchr
  have hprgSize : (parts data).prgRom.size = prgLength data := hfitting.prgRom.trans hprg.symm
  refine ⟨?_, ?_, fun t ht => ?_⟩
  · simp only [cut, hprgSize]
    exact ⟨hwell.prg_pos, hwell.prg_lt⟩
  · by_cases hC : chrLength data = 0
    · simp only [cut, hd.chrSize, hC, ↓reduceIte, Array.size_replicate]
      exact ⟨hd.chrRamSize_pos, hd.chrRamSize_lt⟩
    · have hchrSize : (parts data).chrRom.size = chrLength data :=
        hfitting.chrRom.trans hchr.symm
      simp only [cut, hd.chrSize, hC, ↓reduceIte, hchrSize]
      exact ⟨Nat.pos_of_ne_zero hC, hwell.chr_lt⟩
  · simp only [cut, hd.hasTrainer, decide_eq_true_eq] at ht
    split at ht
    · next hne =>
      cases ht
      exact (hfitting.trainer.trans htrainer.symm).trans
        ((trainerLength_cases data).resolve_left hne)
    · cases ht

theorem Parts.Fitting.size {p : Parts} (hp : p.Fitting) :
    p.bytes.size = 16 + trainerLength p.header + prgLength p.header + chrLength p.header +
      p.rest.size := by
  simp only [Parts.bytes, Array.size_append, hp.header, hp.trainer, hp.prgRom, hp.chrRom]

theorem wellFormed_bytes {p : Parts} (hp : p.Fitting) (hhead : Headed p.header)
    (hpos : 0 < prgLength p.header) : WellFormed p.bytes := by
  obtain ⟨-, htrainer, hprg, hchr⟩ := hp.declares
  have hsize := hp.size
  have hmagic : p.bytes.extract 0 4 = p.header.extract 0 4 := by
    simp only [Parts.bytes, Array.append_assoc]
    exact extract_append _ (by rw [hp.header]; decide)
  constructor
  · constructor
    · omega
    · rw [hmagic, hhead.magic]
    · rw [hprg]
      exact hhead.prg_lt
    · rw [hchr]
      exact hhead.chr_lt
  · rwa [hprg]
  · omega

/-- Parts that fit make an image that is cut into them again. -/
theorem ofBytes_bytes {p : Parts} (hp : p.Fitting) {h : Header}
    (hh : Header.ofBytes p.header = .ok h) (hpos : 0 < prgLength p.header) :
    ofBytes p.bytes = .ok (cut h p) := by
  have hread := read_header p.header
  rw [hh] at hread
  have hwell := wellFormed_bytes hp hread.1 hpos
  obtain ⟨header, hheader, -, hcut⟩ := ofBytes_parts hwell
  have hsame : Header.ofBytes p.bytes = Header.ofBytes p.header := by
    simp only [Parts.bytes, Array.append_assoc]
    exact header_append _ (Nat.le_of_eq hp.header.symm)
  obtain rfl : header = h := Except.ok.inj (hheader.symm.trans (hsame.trans hh))
  rw [hcut, Parts.eq_of_bytes (fitting_parts hwell.fits) hp (bytes_parts hwell.fits)]

theorem cut_append {data : Array UInt8} {h : Header} (more : Array UInt8)
    (hfits : 16 + trainerLength data + prgLength data + chrLength data ≤ data.size)
    (hdialect : h.dialect = .iNes) : cut h (parts (data ++ more)) = cut h (parts data) := by
  have hsize : 16 ≤ data.size := by omega
  have hpart (i : Nat) {j : Nat}
      (hj : j ≤ 16 + trainerLength data + prgLength data + chrLength data) :
      (data ++ more).extract i j = data.extract i j :=
    extract_append more (by omega)
  simp only [cut, parts, trainerLength_append more hsize, prgLength_append more hsize,
    chrLength_append more hsize, hdialect]
  rw [hpart _ (by omega), hpart _ (by omega), hpart _ (by omega)]

/-- What follows the parts of an image of the older dialect does not matter. -/
theorem ofBytes_append {data : Array UInt8} {cart : Cartridge} (h : ofBytes data = .ok cart)
    (hdialect : cart.dialect = .iNes) (more : Array UInt8) :
    ofBytes (data ++ more) = .ok cart := by
  have hwell := wellFormed_of_ofBytes h
  obtain ⟨header, hheader, hd, hcut⟩ := ofBytes_parts hwell
  have hcart : cut header (parts data) = cart := Except.ok.inj (hcut.symm.trans h)
  subst hcart
  have hsize := hwell.size
  have hd' : Describes header (data ++ more) := by
    constructor
    · rw [dialect_append more hsize, hd.dialect]
    · rw [prgLength_append more hsize, hd.prgSize]
    · rw [chrLength_append more hsize, hd.chrSize]
    · rw [trainerLength_append more hsize, hd.hasTrainer]
    · exact hd.chrRamSize_pos
    · exact hd.chrRamSize_lt
  refine (ofBytes_eq_ok ((header_append more hsize).trans hheader) hd' _).2
    ⟨⟨?_, ?_⟩, cut_append more hwell.fits hdialect⟩
  · rw [prgLength_append more hsize]
    exact hwell.prg_pos
  · have hfits := hwell.fits
    rw [trainerLength_append more hsize, prgLength_append more hsize, chrLength_append more hsize,
      Array.size_append]
    omega

/-- Exactly the well-formed images are accepted, without a stop of the machine, and cut into their
parts; what follows the parts of an image of the older dialect does not matter, and any parts of the
declared lengths make an image that is cut into them again. -/
theorem ofBytes_wellFormed :
    (∀ data : Array UInt8,
      ((∃ cart, ofBytes data = .ok cart) ↔ WellFormed data) ∧
      (¬ WellFormed data → ∃ e, ofBytes data = .error e) ∧
      (data.size < 2 ^ 64 → (ofBytes? data).run = some (ofBytes data)) ∧
      ∀ cart, ofBytes data = .ok cart →
        (∃ p : Parts, p.Fitting ∧ p.bytes = data ∧ Holds cart p) ∧
        (cart.dialect = .iNes → ∀ more, ofBytes (data ++ more) = .ok cart)) ∧
    ∀ p : Parts, p.Fitting → Headed p.header → 0 < prgLength p.header →
      ∃ cart, ofBytes p.bytes = .ok cart ∧ Holds cart p := by
  refine ⟨fun data => ⟨⟨fun ⟨_, h⟩ => wellFormed_of_ofBytes h, fun h => ?_⟩, fun h => ?_,
    fun h => answers_ofBytes? h, fun cart h => ⟨?_, ofBytes_append h⟩⟩, fun p hp hhead hpos => ?_⟩
  · obtain ⟨header, -, -, hcut⟩ := ofBytes_parts h
    exact ⟨_, hcut⟩
  · cases hcart : ofBytes data with
    | ok cart => exact absurd (wellFormed_of_ofBytes hcart) h
    | error e => exact ⟨e, rfl⟩
  · have hwell := wellFormed_of_ofBytes h
    obtain ⟨header, -, hd, hcut⟩ := ofBytes_parts hwell
    have hcart : cut header (parts data) = cart := Except.ok.inj (hcut.symm.trans h)
    exact ⟨parts data, fitting_parts hwell.fits, bytes_parts hwell.fits,
      hcart ▸ holds_cut hd (fitting_parts hwell.fits) (bytes_parts hwell.fits)⟩
  · have hwell := wellFormed_bytes hp hhead hpos
    obtain ⟨header, -, hd, hcut⟩ := ofBytes_parts hwell
    have hparts : parts p.bytes = p :=
      Parts.eq_of_bytes (fitting_parts hwell.fits) hp (bytes_parts hwell.fits)
    rw [hparts] at hcut
    exact ⟨_, hcut, holds_cut hd hp rfl⟩

/-- The parts of an image of the older dialect with one unit of program and nothing else. -/
def Parts.plain : Parts where
  header := #[0x4E, 0x45, 0x53, 0x1A, 1, 0, 0, 0, 0, 0, 0, 0, 0, 0, 0, 0]
  trainer := #[]
  prgRom := .replicate 16384 0
  chrRom := #[]
  rest := #[]

theorem ofBytes_wellFormed_plain :
    (∃ cart, ofBytes Parts.plain.bytes = .ok cart ∧ Holds cart Parts.plain ∧
      (∃ p : Parts, p.Fitting ∧ p.bytes = Parts.plain.bytes ∧ Holds cart p) ∧
      (∀ more, ofBytes (Parts.plain.bytes ++ more) = .ok cart) ∧
      (ofBytes? Parts.plain.bytes).run = some (.ok cart)) ∧
    ∃ e, ofBytes #[] = .error e := by
  have hp : Parts.plain.Fitting := ⟨rfl, rfl, Array.size_replicate, rfl⟩
  obtain ⟨cart, hcart, hholds⟩ :=
    ofBytes_wellFormed.2 Parts.plain hp ⟨by decide, rfl, by decide, by decide⟩ (by decide)
  obtain ⟨-, -, hrun, hparts⟩ := ofBytes_wellFormed.1 Parts.plain.bytes
  obtain ⟨hcut, hmore⟩ := hparts cart hcart
  refine ⟨⟨cart, hcart, hholds, hcut, hmore hholds.dialect, ?_⟩,
    (ofBytes_wellFormed.1 #[]).2.1 fun h => absurd h.size (by decide)⟩
  rw [← hcart]
  exact hrun (by rw [hp.size]; decide)

end Image

end Nes.Cartridge
