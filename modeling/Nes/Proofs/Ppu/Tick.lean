import Nes.Ppu.Tick
import Mathlib.Tactic.SplitIfs

/-!
# What a dot changes

A dot leaves most of the picture unit alone: the registers that the processor writes, and the
memories (`Ppu.Setting`, `Ppu.setting_tick`).  The beam moves on by its own rule (`Ppu.beam_tick`).
What the rest becomes is told part by part: the address and the shift registers are those after the
work on the line (`Ppu.v_tick`, `Ppu.background_tick`), the two pictures change places when the
vertical blank starts and get a pixel in each column before (`Ppu.front_tick`, `Ppu.back_tick`), and
the flag of the blank lasts from its start to the line before the first one (`Ppu.vblank_tick`).
-/

namespace Nes.Ppu

variable {γ : Type} [PictureBus γ]

/-- The parts of the picture unit that drawing leaves alone. -/
structure Setting where
  /-- The control register. -/
  control : Control
  /-- The mask register. -/
  mask : Mask
  /-- The address that the current one is set from. -/
  t : Scroll
  /-- The columns by which the picture is shifted within a tile. -/
  fineX : Fin 8
  /-- The next write to the scroll or address register is the second of a pair. -/
  second : Bool
  /-- Nametables. -/
  vram : Vector UInt8 0x1000
  /-- Sprite memory. -/
  sprites : SpriteMemory
  /-- The address within sprite memory. -/
  spriteAddr : UInt8
  /-- Palette memory. -/
  palette : Vector UInt8 32
  /-- The byte that the next read of memory answers. -/
  readBuffer : UInt8
  /-- The byte that was last on the register bus. -/
  openBus : UInt8

/-- The parts of the picture unit that the work on a line leaves alone: the beam, the pictures and
what the processor is told of them. -/
structure Screen where
  /-- The beam. -/
  beam : Beam
  /-- The vertical blank has started and was not yet noticed. -/
  vblank : Bool
  /-- The processor is to be interrupted. -/
  nmi : Bool
  /-- The last complete picture. -/
  front : Picture
  /-- The picture being drawn. -/
  back : Picture
  /-- A picture has been completed and not yet been taken. -/
  frameReady : Bool

/-- The parts of a picture unit that drawing leaves alone. -/
def setting (p : Ppu) : Setting where
  control := p.control
  mask := p.mask
  t := p.t
  fineX := p.fineX
  second := p.second
  vram := p.vram
  sprites := p.sprites
  spriteAddr := p.spriteAddr
  palette := p.palette
  readBuffer := p.readBuffer
  openBus := p.openBus

/-- The parts of a picture unit that the work on a line leaves alone. -/
def screen (p : Ppu) : Screen where
  beam := p.beam
  vblank := p.status.vblank
  nmi := p.nmi
  front := p.front
  back := p.back
  frameReady := p.frameReady

/-! ### The work on a line -/

theorem fetchStep_eq (p : Ppu) (cart : γ) (phase : Nat) :
    ∃ v background, p.fetchStep cart phase = { p with v, background } := by
  unfold fetchStep
  split <;> exact ⟨_, _, rfl⟩

/-- The work on the background changes nothing but the address and the shift registers. -/
theorem fetchBackground_eq (p : Ppu) (cart : γ) :
    ∃ v background, p.fetchBackground cart = { p with v, background } := by
  obtain ⟨v, background, h⟩ :=
    fetchStep_eq { p with background := p.background.shift } cart ((p.beam.dot - 1) % 8)
  simp only [fetchBackground, h]
  split_ifs <;> exact ⟨_, _, rfl⟩

theorem setting_fetchBackground (p : Ppu) (cart : γ) :
    (p.fetchBackground cart).setting = p.setting := by
  obtain ⟨v, background, h⟩ := fetchBackground_eq p cart
  rw [h]
  rfl

theorem screen_fetchBackground (p : Ppu) (cart : γ) :
    (p.fetchBackground cart).screen = p.screen := by
  obtain ⟨v, background, h⟩ := fetchBackground_eq p cart
  rw [h]
  rfl

theorem setting_render (p : Ppu) (cart : γ) : (p.render cart).setting = p.setting := by
  rw [← setting_fetchBackground p cart]
  simp only [render]
  split_ifs <;> rfl

theorem screen_render (p : Ppu) (cart : γ) : (p.render cart).screen = p.screen := by
  rw [← screen_fetchBackground p cart]
  simp only [render]
  split_ifs <;> rfl

/-- A dot up to its pixel: the flags of the last frame end, and the line is worked on. -/
def prepared (p : Ppu) (cart : γ) : Ppu :=
  let p := if p.endsFlags then { p with status := {} } else p
  if p.rendersLine then p.render cart else p

theorem prepared_of_rendersLine {p : Ppu} (cart : γ) (he : p.endsFlags = false)
    (hr : p.rendersLine = true) : p.prepared cart = p.render cart := by
  simp only [prepared, he, hr, Bool.false_eq_true, ↓reduceIte]

theorem setting_prepared (p : Ppu) (cart : γ) : (p.prepared cart).setting = p.setting := by
  simp only [prepared]
  split_ifs <;> first | rfl | exact setting_render _ cart

theorem screen_prepared (p : Ppu) (cart : γ) :
    (p.prepared cart).screen =
      { p.screen with vblank := !p.endsFlags && p.status.vblank } := by
  simp only [prepared]
  by_cases he : p.endsFlags = true
  · simp only [he, ↓reduceIte]
    split_ifs
    · exact screen_render _ cart
    · rfl
  · rw [Bool.not_eq_true] at he
    simp only [he, Bool.false_eq_true, ↓reduceIte]
    split_ifs
    · exact screen_render _ cart
    · rfl

/-! ### The pixel -/

/-- A dot up to the move of the beam, but without the start of the vertical blank. -/
def painted (p : Ppu) (cart : γ) : Ppu :=
  if p.beam.drawing then (p.prepared cart).drawPixel else p.prepared cart

theorem setting_painted (p : Ppu) (cart : γ) : (p.painted cart).setting = p.setting := by
  rw [← setting_prepared p cart, painted]
  split_ifs <;> rfl

theorem tick_eq (p : Ppu) (cart : γ) :
    p.tick cart =
      { (if p.beam.entersVblank then (p.painted cart).enterVblank else p.painted cart) with
        beam := p.beam.advance p.mask.rendering } := by
  have hb : (p.prepared cart).beam = p.beam := congrArg Screen.beam (screen_prepared p cart)
  have hp : (if (p.prepared cart).beam.drawing then (p.prepared cart).drawPixel
      else p.prepared cart) = p.painted cart := by rw [hb, painted]
  have hb' : (p.painted cart).beam = p.beam := by
    rw [painted]
    split_ifs <;> exact hb
  have he : ∀ q : Ppu, q.enterVblank.beam = q.beam := fun _ => rfl
  change (let q := if (p.prepared cart).beam.drawing then (p.prepared cart).drawPixel
      else p.prepared cart
    let q := if q.beam.entersVblank then q.enterVblank else q
    { q with beam := q.beam.advance p.mask.rendering } : Ppu) = _
  simp only [hp, hb']
  split_ifs <;> simp only [he, hb']

/-! ### What a dot makes of each part -/

theorem setting_tick (p : Ppu) (cart : γ) : (p.tick cart).setting = p.setting := by
  rw [← setting_painted p cart, tick_eq]
  split_ifs <;> rfl

theorem beam_tick (p : Ppu) (cart : γ) :
    (p.tick cart).beam = p.beam.advance p.mask.rendering := by
  rw [tick_eq]

theorem v_tick (p : Ppu) (cart : γ) : (p.tick cart).v = (p.prepared cart).v := by
  rw [tick_eq, painted]
  split_ifs <;> rfl

theorem background_tick (p : Ppu) (cart : γ) :
    (p.tick cart).background = (p.prepared cart).background := by
  rw [tick_eq, painted]
  split_ifs <;> rfl

/-- The blank does not start on a line of the picture. -/
theorem Beam.drawing_of_entersVblank {b : Beam} (h : b.entersVblank = true) :
    b.drawing = false := by
  simp only [Beam.entersVblank, vblankLine, Bool.and_eq_true, beq_iff_eq] at h
  simp [Beam.drawing, Beam.visible, height, h.1]

theorem front_tick (p : Ppu) (cart : γ) :
    (p.tick cart).front = if p.beam.entersVblank then p.back else p.front := by
  have hs := screen_prepared p cart
  rw [tick_eq, painted]
  by_cases he : p.beam.entersVblank = true
  · simp only [he, Beam.drawing_of_entersVblank he, Bool.false_eq_true, ↓reduceIte]
    exact congrArg Screen.back hs
  · rw [Bool.not_eq_true] at he
    simp only [he, Bool.false_eq_true, ↓reduceIte]
    split_ifs <;> exact congrArg Screen.front hs

theorem back_tick (p : Ppu) (cart : γ) :
    (p.tick cart).back =
      if p.beam.entersVblank then p.front
      else if p.beam.drawing then (p.prepared cart).drawPixel.back else p.back := by
  have hs := screen_prepared p cart
  rw [tick_eq, painted]
  by_cases he : p.beam.entersVblank = true
  · simp only [he, Beam.drawing_of_entersVblank he, Bool.false_eq_true, ↓reduceIte]
    exact congrArg Screen.front hs
  · rw [Bool.not_eq_true] at he
    simp only [he, Bool.false_eq_true, ↓reduceIte]
    split_ifs
    · rfl
    · exact congrArg Screen.back hs

theorem vblank_tick (p : Ppu) (cart : γ) :
    (p.tick cart).status.vblank =
      (p.beam.entersVblank || (!p.endsFlags && p.status.vblank)) := by
  have hs : (p.prepared cart).status.vblank = (!p.endsFlags && p.status.vblank) :=
    congrArg Screen.vblank (screen_prepared p cart)
  rw [tick_eq, painted]
  by_cases he : p.beam.entersVblank = true
  · simp only [he, ↓reduceIte, Bool.true_or]
    rfl
  · rw [Bool.not_eq_true] at he
    simp only [he, Bool.false_eq_true, ↓reduceIte, Bool.false_or]
    split_ifs <;> exact hs

theorem nmi_tick (p : Ppu) (cart : γ) :
    (p.tick cart).nmi = (p.nmi || (p.beam.entersVblank && p.control.nmiEnabled)) := by
  have hn : (p.prepared cart).nmi = p.nmi := congrArg Screen.nmi (screen_prepared p cart)
  have hc : (p.prepared cart).control = p.control :=
    congrArg Setting.control (setting_prepared p cart)
  rw [tick_eq, painted]
  by_cases he : p.beam.entersVblank = true
  · simp only [he, Beam.drawing_of_entersVblank he, Bool.false_eq_true, ↓reduceIte, Bool.true_and,
      enterVblank, hn, hc]
  · rw [Bool.not_eq_true] at he
    simp only [he, Bool.false_eq_true, ↓reduceIte, Bool.false_and, Bool.or_false]
    split_ifs <;> exact hn

theorem frameReady_tick (p : Ppu) (cart : γ) :
    (p.tick cart).frameReady = (p.beam.entersVblank || p.frameReady) := by
  have hs : (p.prepared cart).frameReady = p.frameReady :=
    congrArg Screen.frameReady (screen_prepared p cart)
  rw [tick_eq, painted]
  by_cases he : p.beam.entersVblank = true
  · simp only [he, ↓reduceIte, Bool.true_or]
    rfl
  · rw [Bool.not_eq_true] at he
    simp only [he, Bool.false_eq_true, ↓reduceIte, Bool.false_or]
    split_ifs <;> exact hs

end Nes.Ppu
