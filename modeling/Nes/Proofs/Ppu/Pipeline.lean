import Nes.Proofs.Ppu.Scene
import Mathlib.Tactic.IntervalCases
import Mathlib.Tactic.SplitIfs

/-!
# The background pipeline

The background is fetched eight dots ahead of the beam.  A line of the plane starts with 17 dots at
the end of the line of the picture before it, and goes on from the second dot of its own line; each
of these dots shifts the registers once, and has the next of eight phases (`Ppu.fetchStep`).

`Pipeline s k Y n v b` says what address and registers are after the first `n` of these dots, for
the line `Y` of the plane from the column `k` of tiles on: every bit of a register that is to be
seen belongs to its pixel of the plane, and every latch that has been fetched for the next tile
holds what the plane holds there.  It holds before the first dot (`Pipeline.start`), and each dot
keeps it (`Pipeline.step`); a pixel of the plane can be read off from it at any fine scroll
(`Pipeline.pixel_eq`, `Pipeline.palette_eq`).
-/

namespace Nes.Ppu

/-! ### Bits of the shift registers -/

/-- The bit that stands at the front of a register after `i` shifts. -/
def ahead (register : UInt16) (i : Nat) : Bool := register.toNat.testBit (15 - i)

theorem bit_eq_ahead (register : UInt16) (fineX : Fin 8) :
    Background.bit register fineX = ahead register fineX.val := by
  have hmask : (0x8000 >>> UInt16.ofNat fineX.val : UInt16).toNat = 2 ^ (15 - fineX.val) := by
    revert fineX
    decide
  have hzero : register &&& (0x8000 >>> UInt16.ofNat fineX.val) = 0 ↔
      register.toNat.testBit (15 - fineX.val) = false := by
    rw [← UInt16.toNat_inj, UInt16.toNat_and, hmask, Nat.and_two_pow]
    cases register.toNat.testBit (15 - fineX.val) <;> simp
  unfold Background.bit ahead
  cases h : register.toNat.testBit (15 - fineX.val)
  · simp only [bne_eq_false_iff_eq, hzero, h]
  · simp only [bne_iff_ne, ne_eq, hzero, h, Bool.true_eq_false, not_false_eq_true]

theorem ahead_shift (register : UInt16) {i : Nat} (h : i < 15) :
    ahead (register <<< 1) i = ahead register (i + 1) := by
  have h1 : decide (15 - i < 16) = true := decide_eq_true (by omega)
  have h2 : decide (15 - i ≥ 1) = true := decide_eq_true (by omega)
  unfold ahead
  rw [UInt16.toNat_shiftLeft, Nat.testBit_mod_two_pow, h1, Bool.true_and]
  change (register.toNat <<< 1).testBit (15 - i) = _
  rw [Nat.testBit_shiftLeft, h2, Bool.true_and, Nat.sub_sub, Nat.add_comm i 1]

theorem ahead_withLow_of_lt (register : UInt16) (v : UInt8) {i : Nat} (h : i < 8) :
    ahead (Background.withLow register v) i = ahead register i := by
  have hv : v.toNat.testBit (15 - i) = false :=
    Nat.testBit_lt_two_pow (v.toNat_lt.trans_le (Nat.pow_le_pow_right (by decide) (by omega)))
  have hm : (0xFF00 : Nat).testBit (15 - i) = true := by interval_cases i <;> rfl
  simp [ahead, Background.withLow, hv, hm]

theorem ahead_withLow_of_le (register : UInt16) (v : UInt8) {i : Nat} (h : 8 ≤ i) :
    ahead (Background.withLow register v) i = v.toNat.testBit (15 - i) := by
  have hm : (0xFF00 : Nat).testBit (15 - i) = false := by
    have : 15 - i < 8 := by omega
    interval_cases 15 - i <;> rfl
  simp [ahead, Background.withLow, hm]

/-- The bits of a register that are to be seen after `n` dots of a line are those of the row
`pixels`, from the column `k` of tiles on.  The first tile reaches the front with the 17th dot, and
of the others those are there that have been loaded. -/
def Loaded (register : UInt16) (k n : Nat) (pixels : Nat → Bool) : Prop :=
  ∀ i < 16, 17 ≤ n + i → n + i - 17 < 8 * ((n - 1) / 8) →
    ahead register i = pixels (8 * k + (n + i - 17))

theorem Loaded.shift {register : UInt16} {k n : Nat} {pixels : Nat → Bool}
    (h : Loaded register k n pixels) (hn : n % 8 ≠ 0) :
    Loaded (register <<< 1) k (n + 1) pixels := by
  intro i hi h17 hlt
  have hi' : i < 15 := by omega
  rw [ahead_shift register hi', h (i + 1) (by omega) (by omega) (by omega)]
  congr 1
  omega

/-- With every eighth dot, the next tile is loaded behind the one at the front. -/
theorem Loaded.load {register : UInt16} {k m : Nat} {pixels : Nat → Bool} {v : UInt8}
    (h : Loaded register k (8 * m) pixels)
    (hv : 0 < m → ∀ j < 8, v.toNat.testBit (7 - j) = pixels (8 * (k + (m - 1)) + j)) :
    Loaded (Background.withLow (register <<< 1) v) k (8 * m + 1) pixels := by
  intro i hi h17 hlt
  by_cases h8 : i < 8
  · rw [ahead_withLow_of_lt _ v h8, ahead_shift register (by omega),
      h (i + 1) (by omega) (by omega) (by omega)]
    congr 1
    omega
  · have hj := hv (by omega) (i - 8) (by omega)
    rw [ahead_withLow_of_le _ v (by omega), show 15 - i = 7 - (i - 8) by omega, hj]
    congr 1
    omega

/-- A dot shifts a register and, if it is an eighth one, loads it. -/
theorem Loaded.next {register : UInt16} {k n : Nat} {pixels : Nat → Bool} {v : UInt8}
    (h : Loaded register k n pixels)
    (hv : 0 < n → (n - 1) % 8 = 7 → ∀ j < 8,
      v.toNat.testBit (7 - j) = pixels (8 * (k + (n - 1) / 8) + j)) :
    Loaded (if n % 8 = 0 then Background.withLow (register <<< 1) v else register <<< 1) k (n + 1)
      pixels := by
  split
  · next h0 =>
    obtain ⟨m, rfl⟩ : ∃ m, n = 8 * m := ⟨n / 8, by omega⟩
    refine h.load fun hm j hj => ?_
    rw [hv (by omega) (by omega) j hj, show (8 * m - 1) / 8 = m - 1 by omega]
  · next h0 => exact h.shift h0

/-! ### Bits of the plane -/

namespace Tile

theorem toNat_bit_pair (a b : Bool) :
    (((if a then 1 else 0 : UInt8) <<< 1) ||| (if b then 1 else 0)).toNat =
      2 * a.toNat + b.toNat := by
  cases a <;> cases b <;> rfl

theorem shiftRight_and_one (v : UInt8) {i : Nat} (h : i < 8) :
    v >>> UInt8.ofNat i &&& 1 = if v.toNat.testBit i then 1 else 0 := by
  apply UInt8.toNat_inj.1
  have hi : (UInt8.ofNat i).toNat % 8 = i := by
    rw [UInt8.toNat_ofNat_of_lt' (by simp only [UInt8.size]; omega), Nat.mod_eq_of_lt h]
  rw [UInt8.toNat_and, UInt8.toNat_shiftRight, hi]
  change v.toNat >>> i &&& 1 = _
  rw [Nat.and_one_is_mod, Nat.testBit_eq_decide_div_mod_eq, Nat.shiftRight_eq_div_pow]
  rcases Nat.mod_two_eq_zero_or_one (v.toNat / 2 ^ i) with h | h <;> simp [h]

/-- The pixel of a row in a column, from the bits of its two bytes. -/
theorem toNat_pixel (low high : UInt8) (column : Nat) :
    (pixel low high column).toNat =
      2 * (high.toNat.testBit (7 - column)).toNat + (low.toNat.testBit (7 - column)).toNat := by
  have h8 : 7 - column < 8 := by omega
  simp only [pixel, shiftRight_and_one _ h8, toNat_bit_pair]

end Tile

namespace Scene

variable (s : Scene)

/-- The low bit of a pixel. -/
def lowBit (Y X : Nat) : Bool := (s.rowLow X Y).toNat.testBit (7 - X % 8)

/-- The high bit of a pixel. -/
def highBit (Y X : Nat) : Bool := (s.rowHigh X Y).toNat.testBit (7 - X % 8)

/-- The low bit of a pixel's palette. -/
def paletteLowBit (Y X : Nat) : Bool := (s.tilePalette X Y).testBit 0

/-- The high bit of a pixel's palette. -/
def paletteHighBit (Y X : Nat) : Bool := (s.tilePalette X Y).testBit 1

theorem lowBit_add (k Y : Nat) {j : Nat} (hj : j < 8) :
    s.lowBit Y (8 * k + j) = (s.rowLow (8 * k) Y).toNat.testBit (7 - j) := by
  rw [lowBit, rowLow_add s k Y hj, show (8 * k + j) % 8 = j by omega]

theorem highBit_add (k Y : Nat) {j : Nat} (hj : j < 8) :
    s.highBit Y (8 * k + j) = (s.rowHigh (8 * k) Y).toNat.testBit (7 - j) := by
  rw [highBit, rowHigh_add s k Y hj, show (8 * k + j) % 8 = j by omega]

theorem paletteLowBit_add (k Y : Nat) {j : Nat} (hj : j < 8) :
    s.paletteLowBit Y (8 * k + j) = (s.tilePalette (8 * k) Y).testBit 0 := by
  rw [paletteLowBit, tilePalette_add s k Y hj]

theorem paletteHighBit_add (k Y : Nat) {j : Nat} (hj : j < 8) :
    s.paletteHighBit Y (8 * k + j) = (s.tilePalette (8 * k) Y).testBit 1 := by
  rw [paletteHighBit, tilePalette_add s k Y hj]

theorem pixel_eq (X Y : Nat) :
    s.pixel X Y = 2 * (s.highBit Y X).toNat + (s.lowBit Y X).toNat :=
  Tile.toNat_pixel ..

theorem tilePalette_eq (X Y : Nat) :
    s.tilePalette X Y = 2 * (s.paletteHighBit Y X).toNat + (s.paletteLowBit Y X).toNat := by
  have h4 : s.tilePalette X Y < 4 := by
    simp only [tilePalette]
    exact Nat.mod_lt _ (by decide)
  simp only [paletteHighBit, paletteLowBit]
  interval_cases s.tilePalette X Y <;> rfl

end Scene

/-! ### A phase of the fetch -/

variable {γ : Type} [PictureBus γ]

theorem v_fetchStep (p : Ppu) (cart : γ) (phase : Nat) :
    (p.fetchStep cart phase).v = if phase = 7 then p.v.nextTile else p.v := by
  unfold fetchStep
  split
  case h_6 => exact (if_neg ‹phase = 7 → False›).symm
  all_goals rfl

theorem tile_fetchStep (p : Ppu) (cart : γ) (phase : Nat) :
    (p.fetchStep cart phase).background.tile =
      if phase = 0 then p.readMemory cart (UInt16.ofNat p.v.tileAddr) else p.background.tile := by
  unfold fetchStep
  split
  case h_6 => exact (if_neg ‹phase = 0 → False›).symm
  all_goals rfl

theorem attributes_fetchStep (p : Ppu) (cart : γ) (phase : Nat) :
    (p.fetchStep cart phase).background.attributes =
      if phase = 2 then
        p.v.attributeBits (p.readMemory cart (UInt16.ofNat p.v.attributeAddr))
      else p.background.attributes := by
  unfold fetchStep
  split
  case h_6 => exact (if_neg ‹phase = 2 → False›).symm
  all_goals rfl

theorem low_fetchStep (p : Ppu) (cart : γ) (phase : Nat) :
    (p.fetchStep cart phase).background.low =
      if phase = 4 then PictureBus.chrRead cart (UInt16.ofNat p.patternAddr)
      else p.background.low := by
  unfold fetchStep
  split
  case h_6 => exact (if_neg ‹phase = 4 → False›).symm
  all_goals rfl

theorem high_fetchStep (p : Ppu) (cart : γ) (phase : Nat) :
    (p.fetchStep cart phase).background.high =
      if phase = 6 then PictureBus.chrRead cart (UInt16.ofNat (p.patternAddr + 8))
      else p.background.high := by
  unfold fetchStep
  split
  case h_6 => exact (if_neg ‹phase = 6 → False›).symm
  all_goals rfl

theorem patternLow_fetchStep (p : Ppu) (cart : γ) (phase : Nat) :
    (p.fetchStep cart phase).background.patternLow =
      if phase = 0 then Background.withLow p.background.patternLow p.background.low
      else p.background.patternLow := by
  unfold fetchStep
  split
  case h_6 => exact (if_neg ‹phase = 0 → False›).symm
  all_goals rfl

theorem patternHigh_fetchStep (p : Ppu) (cart : γ) (phase : Nat) :
    (p.fetchStep cart phase).background.patternHigh =
      if phase = 0 then Background.withLow p.background.patternHigh p.background.high
      else p.background.patternHigh := by
  unfold fetchStep
  split
  case h_6 => exact (if_neg ‹phase = 0 → False›).symm
  all_goals rfl

theorem attributeLow_fetchStep (p : Ppu) (cart : γ) (phase : Nat) :
    (p.fetchStep cart phase).background.attributeLow =
      if phase = 0 then Background.withLow p.background.attributeLow
        (if p.background.attributes &&& 1 != 0 then 0xFF else 0)
      else p.background.attributeLow := by
  unfold fetchStep
  split
  case h_6 => exact (if_neg ‹phase = 0 → False›).symm
  all_goals rfl

theorem attributeHigh_fetchStep (p : Ppu) (cart : γ) (phase : Nat) :
    (p.fetchStep cart phase).background.attributeHigh =
      if phase = 0 then Background.withLow p.background.attributeHigh
        (if p.background.attributes &&& 2 != 0 then 0xFF else 0)
      else p.background.attributeHigh := by
  unfold fetchStep
  split
  case h_6 => exact (if_neg ‹phase = 0 → False›).symm
  all_goals rfl

/-! ### The state of the pipeline -/

/-- The address and the registers after the first `n` dots of a line of the plane. -/
structure Pipeline (s : Scene) (k Y n : Nat) (v : Scroll) (b : Background) : Prop where
  /-- The address is that of the next tile. -/
  position : v = Scroll.atTile (k + n / 8) Y
  /-- The tile has been fetched. -/
  tile : 0 < n → b.tile = s.tile (8 * (k + (n - 1) / 8)) Y
  /-- Its palette has been fetched, from the third phase on. -/
  attributes : 0 < n → 2 ≤ (n - 1) % 8 →
    b.attributes.toNat = s.tilePalette (8 * (k + (n - 1) / 8)) Y
  /-- The low bits of its row have been fetched, from the fifth phase on. -/
  low : 0 < n → 4 ≤ (n - 1) % 8 → b.low = s.rowLow (8 * (k + (n - 1) / 8)) Y
  /-- The high bits of its row have been fetched, from the seventh phase on. -/
  high : 0 < n → 6 ≤ (n - 1) % 8 → b.high = s.rowHigh (8 * (k + (n - 1) / 8)) Y
  /-- The low bits of the pixels to be seen. -/
  patternLow : Loaded b.patternLow k n (s.lowBit Y)
  /-- The high bits of the pixels to be seen. -/
  patternHigh : Loaded b.patternHigh k n (s.highBit Y)
  /-- The low bits of their palettes. -/
  attributeLow : Loaded b.attributeLow k n (s.paletteLowBit Y)
  /-- The high bits of their palettes. -/
  attributeHigh : Loaded b.attributeHigh k n (s.paletteHighBit Y)

/-- Before the first dot nothing has been fetched, and only the address matters. -/
theorem Pipeline.start (s : Scene) (k Y : Nat) (b : Background) :
    Pipeline s k Y 0 (Scroll.atTile k Y) b where
  position := rfl
  tile := fun h => absurd h (Nat.lt_irrefl 0)
  attributes := fun h => absurd h (Nat.lt_irrefl 0)
  low := fun h => absurd h (Nat.lt_irrefl 0)
  high := fun h => absurd h (Nat.lt_irrefl 0)
  patternLow := fun i hi h17 => by omega
  patternHigh := fun i hi h17 => by omega
  attributeLow := fun i hi h17 => by omega
  attributeHigh := fun i hi h17 => by omega

/-- A bit of a byte, taken out by a mask. -/
theorem and_bit_ne_zero (a mask : UInt8) {i : Nat} (hmask : mask.toNat = 2 ^ i) :
    (a &&& mask != 0) = a.toNat.testBit i := by
  have hzero : a &&& mask = 0 ↔ a.toNat.testBit i = false := by
    rw [← UInt8.toNat_inj, UInt8.toNat_and, hmask, Nat.and_two_pow]
    cases a.toNat.testBit i <;> simp
  cases h : a.toNat.testBit i
  · simp only [bne_eq_false_iff_eq, hzero, h]
  · simp only [bne_iff_ne, ne_eq, hzero, h, Bool.true_eq_false, not_false_eq_true]

/-- The bits of a palette are spread over the eight pixels of the tile. -/
theorem testBit_spread (a mask : UInt8) {i j : Nat} (hmask : mask.toNat = 2 ^ i) (hj : j < 8) :
    (if a &&& mask != 0 then 0xFF else 0 : UInt8).toNat.testBit j = a.toNat.testBit i := by
  rw [and_bit_ne_zero a mask hmask]
  cases a.toNat.testBit i
  · simp
  · interval_cases j <;> rfl

/-- **A dot keeps the pipeline:** it shifts the registers and has the phase of its number. -/
theorem Pipeline.step {p : Ppu} {cart : γ} {k Y n : Nat}
    (h : Pipeline (p.scene cart) k Y n p.v p.background) :
    Pipeline (p.scene cart) k Y (n + 1)
      (fetchStep { p with background := p.background.shift } cart (n % 8)).v
      (fetchStep { p with background := p.background.shift } cart (n % 8)).background := by
  have hposition := h.position
  constructor
  · rw [v_fetchStep]
    simp only [hposition, Scroll.nextTile_atTile]
    split
    · rw [show (n + 1) / 8 = n / 8 + 1 by omega, Nat.add_assoc]
    · rw [show (n + 1) / 8 = n / 8 by omega]
  · intro _
    rw [tile_fetchStep, Nat.add_sub_cancel]
    split
    · simp only [hposition]
      exact readMemory_tileAddr _ cart _ Y
    · rw [show n / 8 = (n - 1) / 8 by omega]
      exact h.tile (by omega)
  · intro _ h2
    rw [Nat.add_sub_cancel] at h2 ⊢
    rw [attributes_fetchStep]
    split
    · simp only [hposition]
      exact attributeBits_atTile _ cart _ Y
    · rw [show n / 8 = (n - 1) / 8 by omega]
      exact h.attributes (by omega) (by omega)
  · intro _ h4
    rw [Nat.add_sub_cancel] at h4 ⊢
    rw [low_fetchStep, show n / 8 = (n - 1) / 8 by omega]
    split
    · rw [patternAddr, Scene.rowLow, ← h.tile (by omega)]
      simp only [hposition]
      rfl
    · exact h.low (by omega) (by omega)
  · intro _ h6
    rw [Nat.add_sub_cancel] at h6 ⊢
    rw [high_fetchStep, show n / 8 = (n - 1) / 8 by omega]
    split
    · rw [patternAddr, Scene.rowHigh, ← h.tile (by omega)]
      simp only [hposition]
      rfl
    · exact h.high (by omega) (by omega)
  · rw [patternLow_fetchStep]
    refine h.patternLow.next fun h0 h7 j hj => ?_
    rw [Scene.lowBit_add _ _ _ hj, ← h.low h0 (by omega)]
    rfl
  · rw [patternHigh_fetchStep]
    refine h.patternHigh.next fun h0 h7 j hj => ?_
    rw [Scene.highBit_add _ _ _ hj, ← h.high h0 (by omega)]
    rfl
  · rw [attributeLow_fetchStep]
    refine h.attributeLow.next fun h0 h7 j hj => ?_
    rw [Scene.paletteLowBit_add _ _ _ hj, ← h.attributes h0 (by omega)]
    exact testBit_spread _ 1 rfl (by omega)
  · rw [attributeHigh_fetchStep]
    refine h.attributeHigh.next fun h0 h7 j hj => ?_
    rw [Scene.paletteHighBit_add _ _ _ hj, ← h.attributes h0 (by omega)]
    exact testBit_spread _ 2 rfl (by omega)

/-- The pixel at the front, `c` columns into the line. -/
theorem Pipeline.pixel_eq {s : Scene} {k Y c : Nat} {v : Scroll} {b : Background}
    (h : Pipeline s k Y (c + 17) v b) (fineX : Fin 8) :
    b.pixel fineX = s.pixel (8 * k + fineX.val + c) Y := by
  have hi := fineX.isLt
  have e : c + 17 + fineX.val - 17 = fineX.val + c := by omega
  have hlow := h.patternLow fineX.val (by omega) (by omega) (by omega)
  have hhigh := h.patternHigh fineX.val (by omega) (by omega) (by omega)
  rw [e, ← Nat.add_assoc] at hlow hhigh
  rw [Background.pixel, bit_eq_ahead, bit_eq_ahead, hlow, hhigh, s.pixel_eq]

/-- Its palette. -/
theorem Pipeline.palette_eq {s : Scene} {k Y c : Nat} {v : Scroll} {b : Background}
    (h : Pipeline s k Y (c + 17) v b) (fineX : Fin 8) :
    b.palette fineX = s.tilePalette (8 * k + fineX.val + c) Y := by
  have hi := fineX.isLt
  have e : c + 17 + fineX.val - 17 = fineX.val + c := by omega
  have hlow := h.attributeLow fineX.val (by omega) (by omega) (by omega)
  have hhigh := h.attributeHigh fineX.val (by omega) (by omega) (by omega)
  rw [e, ← Nat.add_assoc] at hlow hhigh
  rw [Background.palette, bit_eq_ahead, bit_eq_ahead, hlow, hhigh, s.tilePalette_eq]

end Nes.Ppu
