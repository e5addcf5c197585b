import Nes.Proofs.Ppu.Foreground
import Nes.Proofs.Ppu.Picture

/-!
# Where the first sprite meets the background

The flag of the first sprite is cleared before the first line and set at the first dot at which a
pixel of the first sprite meets one of the background.  Two pipelines come together there: the
shift registers of the background, and the sprites of the line, which were drawn one line earlier.
`Watching s k Y fineX first cart p` says what both hold at every place of the beam and what the flag
tells of the pixels behind it; a dot keeps it (`Watching.step`).  So after a whole frame the flag is
set if and only if the first sprite covers a pixel of the plane that is not zero, in the columns and
lines where both are shown (`zeroHit_setUp`).
-/

namespace Nes.Ppu

variable {γ : Type} [PictureBus γ]

/-! ### What a dot makes of the sprites and the flag -/

theorem zeroHit_render (p : Ppu) (cart : γ) :
    (p.render cart).status.zeroHit = p.status.zeroHit := by
  obtain ⟨v, background, hfetch⟩ := fetchBackground_eq p cart
  simp only [render, hfetch]
  split_ifs <;> rfl

theorem zeroHit_prepared (p : Ppu) (cart : γ) :
    (p.prepared cart).status.zeroHit = (!p.endsFlags && p.status.zeroHit) := by
  simp only [prepared]
  by_cases he : p.endsFlags = true
  · simp only [he, ↓reduceIte, Bool.not_true, Bool.false_and]
    split_ifs
    · exact zeroHit_render _ cart
    · rfl
  · rw [Bool.not_eq_true] at he
    simp only [he, Bool.false_eq_true, ↓reduceIte, Bool.not_false, Bool.true_and]
    split_ifs
    · exact zeroHit_render p cart
    · rfl

/-- The flag is set by a dot that draws a pixel where the first sprite meets the background. -/
theorem zeroHit_tick (p : Ppu) (cart : γ) :
    (p.tick cart).status.zeroHit = ((!p.endsFlags && p.status.zeroHit) ||
      (p.beam.drawing && meets ((p.prepared cart).backgroundAt (p.beam.dot - 1)).1
        ((p.prepared cart).spriteAt (p.beam.dot - 1)) (p.beam.dot - 1))) := by
  have hbeam : (p.prepared cart).beam = p.beam := congrArg Screen.beam (screen_prepared p cart)
  have henter (q : Ppu) (b : Bool) :
      (if b then q.enterVblank else q).status.zeroHit = q.status.zeroHit := by
    cases b <;> rfl
  rw [tick_eq, ← zeroHit_prepared p cart]
  refine (henter (p.painted cart) p.beam.entersVblank).trans ?_
  rw [painted]
  cases hd : p.beam.drawing
  · exact (Bool.or_false _).symm
  · rw [← hbeam]
    rfl

theorem spriteLine_render (p : Ppu) (cart : γ) :
    (p.render cart).spriteLine =
      if p.beam.dot = 257 then
        if p.beam.visible then (p.drawSprites cart).spriteLine else .empty
      else p.spriteLine := by
  obtain ⟨v, background, hfetch⟩ := fetchBackground_eq p cart
  simp only [render, hfetch, beq_iff_eq]
  split_ifs <;> rfl

theorem spriteLine_prepared {p : Ppu} {cart : γ} (hr : p.rendersLine = true) :
    (p.prepared cart).spriteLine =
      if p.beam.dot = 257 then
        if p.beam.visible then (p.drawSprites cart).spriteLine else .empty
      else p.spriteLine := by
  by_cases he : p.endsFlags = true
  · have hr' : rendersLine { p with status := {} } = true := hr
    simp only [prepared, he, ↓reduceIte, hr']
    exact spriteLine_render _ cart
  · rw [prepared_of_rendersLine cart (Bool.not_eq_true _ ▸ he) hr, spriteLine_render]

/-- The sprites of the next line are drawn when a line ends, and none before the first line. -/
theorem spriteLine_tick {p : Ppu} {cart : γ} (hr : p.rendersLine = true) :
    (p.tick cart).spriteLine =
      if p.beam.dot = 257 then
        if p.beam.visible then (p.drawSprites cart).spriteLine else .empty
      else p.spriteLine := by
  rw [← spriteLine_prepared hr, tick_eq, painted]
  split_ifs <;> rfl

/-! ### The flag during a frame -/

/-- The first sprite meets the background of the scene at a pixel of the picture whose top left is
at `X` and `Y` in the plane. -/
def Scene.Meets (s : Scene) (first : Sprite) (X Y px py : Nat) : Prop :=
  s.mask.showsBackground px = true ∧ s.mask.showsSprites px = true ∧ px ≠ 255 ∧
    s.pixel (X + px) (Y + py) ≠ 0 ∧ first.Covers s.chr s.control px py

/-- The first sprite meets the background at a pixel of the picture behind the beam. -/
def Scene.MeetsBehind (s : Scene) (first : Sprite) (X Y : Nat) (b : Beam) : Prop :=
  ∃ py < 240, ∃ px < 256, (py < b.line ∨ py = b.line ∧ px + 1 < b.dot) ∧ s.Meets first X Y px py

/-- The line of sprites shows the first one where it covers the line `py` of the picture. -/
def ShowsFirst (s : Scene) (first : Sprite) (py : Nat) (shown : SpriteLine) : Prop :=
  ∀ (px : Nat) (h : px < 256),
    shown[px].pixel ≠ 0 ∧ shown[px].isFirst = true ↔ first.Covers s.chr s.control px py

/-- The picture unit between two vertical blanks, while background and sprites are shown. -/
structure Watching (s : Scene) (k Y : Nat) (fineX : Fin 8) (first : Sprite) (cart : γ) (p : Ppu) :
    Prop extends Fetching s k Y fineX cart p where
  /-- The first sprite. -/
  sprite : Sprite.ofMemory p.sprites 0 = first
  /-- The sprites of a line of the picture, until the next ones are drawn. -/
  line : p.beam.line < 240 → p.beam.dot ≤ 257 → ShowsFirst s first p.beam.line p.spriteLine
  /-- The sprites of the next line. -/
  nextLine : p.beam.line < 240 ∨ p.beam.line = 261 → 258 ≤ p.beam.dot →
    ShowsFirst s first ((p.beam.line + 1) % 262) p.spriteLine
  /-- Before the first line the flag is cleared. -/
  cleared : p.beam.line = 261 → 2 ≤ p.beam.dot → p.status.zeroHit = false
  /-- The flag tells whether the first sprite meets the background behind the beam. -/
  hit : p.beam.line ≤ 240 ∨ p.beam.line = 241 ∧ p.beam.dot ≤ 1 →
    (p.status.zeroHit = true ↔ s.MeetsBehind first (8 * k + fineX.val) Y p.beam)

namespace Scene

variable {s : Scene} {first : Sprite} {X Y : Nat}

/-- Two places of the beam are alike if they have the same pixels behind them. -/
theorem meetsBehind_congr {b c : Beam}
    (h : ∀ py < 240, ∀ px < 256, (py < b.line ∨ py = b.line ∧ px + 1 < b.dot) ↔
      (py < c.line ∨ py = c.line ∧ px + 1 < c.dot)) :
    s.MeetsBehind first X Y b ↔ s.MeetsBehind first X Y c :=
  exists_congr fun py => and_congr_right fun hpy => exists_congr fun px =>
    and_congr_right fun hpx => and_congr_left' (h py hpy px hpx)

/-- When a pixel has been drawn, it is behind the beam. -/
theorem meetsBehind_advance {b : Beam} (hd : b.drawing = true) (r : Bool) :
    s.MeetsBehind first X Y (b.advance r) ↔
      s.MeetsBehind first X Y b ∨ s.Meets first X Y (b.dot - 1) b.line := by
  obtain ⟨hl240, h1, h256⟩ := Beam.drawing_iff.1 hd
  rw [Beam.advance_of_lt _ (show b.dot + 2 < 341 by omega)]
  constructor
  · rintro ⟨py, hpy, px, hpx, hbehind, hmeets⟩
    dsimp only at hbehind
    by_cases hnew : py = b.line ∧ px = b.dot - 1
    · rw [hnew.1, hnew.2] at hmeets
      exact Or.inr hmeets
    · exact Or.inl ⟨py, hpy, px, hpx, by omega, hmeets⟩
  · rintro (⟨py, hpy, px, hpx, hbehind, hmeets⟩ | hmeets)
    · exact ⟨py, hpy, px, hpx, by dsimp only; omega, hmeets⟩
    · exact ⟨b.line, hl240, b.dot - 1, by omega, by dsimp only; omega, hmeets⟩

theorem not_meetsBehind_of_start {b : Beam} (hline : b.line = 0) (hdot : b.dot = 0) :
    ¬s.MeetsBehind first X Y b := by
  rintro ⟨py, -, px, -, hbehind, -⟩
  omega

/-- When the blank starts, the whole picture is behind the beam; a sprite covers none of its first
line. -/
theorem meetsBehind_of_blank {b : Beam} (hline : b.line = 241) :
    s.MeetsBehind first X Y b ↔
      ∃ py px, 1 ≤ py ∧ py ≤ 239 ∧ px ≤ 254 ∧
        (s.mask.showsBackground px = true ∧ s.mask.showsSprites px = true) ∧
        s.pixel ((X + px) % 512) ((Y + py) % 480) ≠ 0 ∧ first.Covers s.chr s.control px py := by
  constructor
  · rintro ⟨py, hpy, px, hpx, -, hbackground, hsprites, hcolumn, hpixel, hcovers⟩
    have hfirst : 1 ≤ py := by
      obtain ⟨row, -, column, -, hy, -⟩ := hcovers
      omega
    exact ⟨py, px, hfirst, by omega, by omega, ⟨hbackground, hsprites⟩,
      by rwa [Scene.pixel_mod], hcovers⟩
  · rintro ⟨py, px, -, hpy, hpx, ⟨hbackground, hsprites⟩, hpixel, hcovers⟩
    exact ⟨py, by omega, px, by omega, by omega, hbackground, hsprites, by omega,
      by rwa [Scene.pixel_mod] at hpixel, hcovers⟩

end Scene

/-- No sprite covers the first line of the picture. -/
theorem showsFirst_empty (s : Scene) (first : Sprite) : ShowsFirst s first 0 .empty := by
  intro px h
  have hempty : SpriteLine.empty[px] = {} := Vector.getElem_replicate h
  rw [hempty]
  refine ⟨fun hshown => absurd rfl hshown.1, ?_⟩
  rintro ⟨row, -, column, -, hy, -⟩
  omega

section Step

variable {s : Scene} {k Y : Nat} {fineX : Fin 8} {first : Sprite} {cart : γ} {p : Ppu}
variable (h : Watching s k Y fineX first cart p) (hb : s.mask.background = true)

include h hb

theorem Watching.line_tick (hline : (p.tick cart).beam.line < 240)
    (hdot : (p.tick cart).beam.dot ≤ 257) :
    ShowsFirst s first (p.tick cart).beam.line (p.tick cart).spriteLine := by
  have hm := h.mask_background hb
  rw [beam_tick] at hline hdot ⊢
  rcases p.beam.advance_line_dot p.mask.rendering with ⟨_, hl, hd⟩ | ⟨hend, hd, hl⟩
  · rw [hl] at hline
    rw [hl, spriteLine_tick (rendersLine_of_line hm (Or.inl hline)), if_neg (by omega)]
    exact h.line hline (by omega)
  · rw [spriteLine_tick (rendersLine_of_line hm (by omega)), if_neg (by omega),
      show (p.beam.advance p.mask.rendering).line = (p.beam.line + 1) % 262 by omega]
    exact h.nextLine (by omega) (by omega)

theorem Watching.nextLine_tick
    (hline : (p.tick cart).beam.line < 240 ∨ (p.tick cart).beam.line = 261)
    (hdot : 258 ≤ (p.tick cart).beam.dot) :
    ShowsFirst s first (((p.tick cart).beam.line + 1) % 262) (p.tick cart).spriteLine := by
  have hm := h.mask_background hb
  rw [beam_tick] at hline hdot ⊢
  rcases p.beam.advance_line_dot p.mask.rendering with ⟨_, hl, hd⟩ | ⟨_, hd, _⟩
  · rw [hl] at hline
    rw [hl, spriteLine_tick (rendersLine_of_line hm hline)]
    by_cases h257 : p.beam.dot = 257
    · rw [if_pos h257]
      rcases hline with hline | hline
      · have hvisible : p.beam.visible = true := decide_eq_true hline
        rw [hvisible, if_pos rfl, show (p.beam.line + 1) % 262 = p.beam.line + 1 by omega]
        intro px hpx
        have hshows := showsFirst_drawSprites p cart hpx
        rw [h.sprite] at hshows
        obtain rfl := h.scene
        exact hshows
      · have hvisible : p.beam.visible = false := by
          rw [Beam.visible, hline]
          rfl
        rw [hvisible, hline]
        exact showsFirst_empty s first
    · rw [if_neg h257]
      exact h.nextLine hline (by omega)
  · omega

/-- The pixel at the beam sets the flag where the first sprite meets the background. -/
theorem Watching.meets_iff (hline : p.beam.line < 240) (h1 : 1 ≤ p.beam.dot)
    (h256 : p.beam.dot ≤ 256) {c : Nat} (hc : c = p.beam.dot - 1) :
    meets ((p.prepared cart).backgroundAt c).1 ((p.prepared cart).spriteAt c) c = true ↔
      s.Meets first (8 * k + fineX.val) Y c p.beam.line := by
  have hlt : c < 256 := by omega
  have hr := rendersLine_of_line (h.mask_background hb) (Or.inl hline)
  have hspriteLine : (p.prepared cart).spriteLine = p.spriteLine :=
    (spriteLine_prepared hr).trans (if_neg (by omega))
  have hsprite : (p.prepared cart).spriteAt c =
      if s.mask.showsSprites c then p.spriteLine[c] else {} := by
    rw [spriteAt, h.mask_prepared, hspriteLine]
    simp [Vector.getD, hlt]
  have hshows := h.line hline (by omega) c hlt
  rw [h.backgroundAt_prepared hb hline h1 h256 hc, hsprite, meets, Scene.Meets, ← hshows]
  cases s.mask.showsBackground c <;> cases s.mask.showsSprites c <;>
    simp only [Bool.false_eq_true, ↓reduceIte, bne_self_eq_false, Bool.false_and, Bool.and_false,
      Bool.and_eq_true, bne_iff_ne, false_and, true_and]
  tauto

/-- One more pixel is behind the beam when it has been drawn. -/
theorem Watching.hit_tick (hline : (p.tick cart).beam.line ≤ 240 ∨
      (p.tick cart).beam.line = 241 ∧ (p.tick cart).beam.dot ≤ 1) :
    (p.tick cart).status.zeroHit = true ↔
      s.MeetsBehind first (8 * k + fineX.val) Y (p.tick cart).beam := by
  rw [beam_tick] at hline ⊢
  rw [zeroHit_tick]
  by_cases hd : p.beam.drawing = true
  · obtain ⟨hl240, h1, h256⟩ := Beam.drawing_iff.1 hd
    rw [endsFlags_of_line (by omega), hd, Bool.not_false, Bool.true_and, Bool.true_and,
      Bool.or_eq_true, h.hit (by omega), h.meets_iff hb hl240 h1 h256 rfl]
    exact (Scene.meetsBehind_advance hd _).symm
  · -- Without a pixel there is nothing more behind the beam, or it starts over.
    rw [Bool.not_eq_true] at hd
    have hnot : ¬(p.beam.line < 240 ∧ 1 ≤ p.beam.dot ∧ p.beam.dot ≤ 256) := by
      rw [← Beam.drawing_iff, hd]
      exact Bool.false_ne_true
    rw [hd, Bool.false_and, Bool.or_false]
    rcases p.beam.advance_line_dot p.mask.rendering with
      ⟨_, hl, hd'⟩ | ⟨hend, hd', ⟨hl261, hl⟩ | ⟨hl261, hl⟩⟩
    · rw [hl, hd'] at hline
      rw [endsFlags_of_line (by omega), Bool.not_false, Bool.true_and, h.hit (by omega)]
      exact Scene.meetsBehind_congr fun _ _ _ _ => by omega
    · rw [h.cleared hl261 (by omega), Bool.and_false]
      exact iff_of_false Bool.false_ne_true (Scene.not_meetsBehind_of_start hl hd')
    · rw [hl, hd'] at hline
      rw [endsFlags_of_line hl261, Bool.not_false, Bool.true_and, h.hit (by omega)]
      exact Scene.meetsBehind_congr fun _ _ _ _ => by omega

omit hb in
theorem Watching.cleared_tick (hline : (p.tick cart).beam.line = 261)
    (hdot : 2 ≤ (p.tick cart).beam.dot) : (p.tick cart).status.zeroHit = false := by
  rw [beam_tick] at hline hdot
  rcases p.beam.advance_line_dot p.mask.rendering with ⟨_, hl, hd⟩ | ⟨_, hd, _⟩
  · rw [hl] at hline
    have hnot : p.beam.drawing = false := by
      rw [← Bool.not_eq_true, Beam.drawing_iff]
      omega
    rw [zeroHit_tick, hnot, Bool.false_and, Bool.or_false]
    by_cases h1 : p.beam.dot = 1
    · have hends : p.endsFlags = true := by
        simp [endsFlags, Beam.preRender, preRenderLine, hline, h1]
      rw [hends, Bool.not_true, Bool.false_and]
    · rw [h.cleared hline (by omega), Bool.and_false]
  · omega

/-- **A dot keeps what the sprites and the flag tell.** -/
theorem Watching.step : Watching s k Y fineX first cart (p.tick cart) where
  toFetching := h.toFetching.step hb
  sprite := (congrArg (fun q => Sprite.ofMemory q.sprites 0) (setting_tick p cart)).trans h.sprite
  line := h.line_tick hb
  nextLine := h.nextLine_tick hb
  cleared := h.cleared_tick
  hit := h.hit_tick hb

end Step

/-! ### A whole frame -/

theorem Watching.dot {s : Scene} {k Y : Nat} {fineX : Fin 8} {first : Sprite} {q : Ppu × Board}
    (h : Watching s k Y fineX first q.2 q.1) (hb : s.mask.background = true) :
    Watching s k Y fineX first (Ppu.dot q).2 (Ppu.dot q).1 :=
  { h.step hb with toFetching := h.toFetching.dot hb }

/-- The flag tells nothing of a frame that has not begun. -/
theorem Watching.start {p : Ppu} {cart : Board} {k Y : Nat} (hscroll : p.t = .atTile k Y)
    (hline : p.beam.line = 241 ∧ 2 ≤ p.beam.dot ∨ 242 ≤ p.beam.line ∧ p.beam.line ≤ 260)
    (hdot : p.beam.dot < 341) :
    Watching (p.scene cart) k Y p.fineX (Sprite.ofMemory p.sprites 0) cart p where
  toFetching := Fetching.start hscroll hline hdot
  sprite := rfl
  line := fun h => by omega
  nextLine := fun h => by omega
  cleared := fun h => by omega
  hit := fun h => by omega

/-- The columns in which both the background and sprites are shown. -/
theorem shows_iff {mask : UInt8} (hbackground : mask &&& 0x08 ≠ 0) (hsprites : mask &&& 0x10 ≠ 0)
    (px : Nat) :
    (Mask.mk mask).showsBackground px = true ∧ (Mask.mk mask).showsSprites px = true ↔
      8 ≤ px ∨ mask &&& 0x02 ≠ 0 ∧ mask &&& 0x04 ≠ 0 := by
  simp only [Mask.showsBackground, Mask.showsSprites, Mask.background, Mask.sprites,
    Mask.backgroundLeft, Mask.spritesLeft, Bool.and_eq_true, Bool.or_eq_true, decide_eq_true_eq,
    bne_iff_ne]
  tauto

/-- **The flag of the first sprite tells whether it meets the background.**  A program that sets up
a picture during the vertical blank, with background and sprites shown, finds the flag set after the
start of the next one if and only if there is a pixel of the picture, not in its first line nor in
its last column, and in one of the leftmost eight columns only if both are shown there, at which the
plane has a pixel that is not zero and the first sprite covers it with one that is not zero.
Neither the other sprites nor the place of the first one before or behind the background matter. -/
theorem zeroHit_setUp (p : Ppu) (b : Board) (sx sy control mask : UInt8)
    (hline : p.beam.line = 241 ∧ 2 ≤ p.beam.dot ∨ 242 ≤ p.beam.line ∧ p.beam.line ≤ 260)
    (hdot : p.beam.dot < 341) (hsy : sy.toNat < 240) (hbackground : mask &&& 0x08 ≠ 0)
    (hsprites : mask &&& 0x10 ≠ 0) :
    let start := setUp p b sx sy control mask
    let scene : Scene :=
      { vram := p.vram, mirroring := b.mirroring, chr := b.chrRead, palette := p.palette,
        control := ⟨control⟩, mask := ⟨mask⟩ }
    ∃ n, (Ppu.dot^[n] start).1.beam.entersVblank = true ∧
      (∀ i < n, (Ppu.dot^[i] start).1.beam.entersVblank = false) ∧
      ((Ppu.dot^[n + 1] start).1.status.zeroHit = true ↔
        ∃ py px, 1 ≤ py ∧ py ≤ 239 ∧ px ≤ 254 ∧
          (8 ≤ px ∨ mask &&& 0x02 ≠ 0 ∧ mask &&& 0x04 ≠ 0) ∧
          scene.pixel ((256 * (control.toNat % 2) + sx.toNat + px) % 512)
            ((240 * (control.toNat / 2 % 2) + sy.toNat + py) % 480) ≠ 0 ∧
          (Sprite.ofMemory p.sprites 0).Covers b.chrRead ⟨control⟩ px py) := by
  intro start scene
  have hb : scene.mask.background = true := bne_iff_ne.2 hbackground
  have hstart : Watching scene (32 * (control.toNat % 2) + sx.toNat / 8)
      (240 * (control.toNat / 2 % 2) + sy.toNat) (Bits.low3 sx) (Sprite.ofMemory p.sprites 0)
      start.2 start.1 :=
    Watching.start (setUp_scroll p b sx sy control mask hsy) hline hdot
  obtain ⟨n, hn, hbefore, hwatching⟩ := exists_entersVblank
    (I := fun q => Watching scene _ _ _ _ q.2 q.1) (fun _ h => h.inFrame) (fun _ h _ => h.dot hb)
    start hstart
  refine ⟨n, hn, hbefore, ?_⟩
  obtain ⟨hline, hdot⟩ := Beam.entersVblank_iff.1 hn
  -- The dot that starts the blank draws no pixel.
  have hlast : (Ppu.dot^[n + 1] start).1.status.zeroHit =
      (Ppu.dot^[n] start).1.status.zeroHit := by
    rw [Function.iterate_succ_apply']
    refine (zeroHit_tick _ _).trans ?_
    rw [Beam.drawing_of_entersVblank hn, endsFlags_of_line (by omega)]
    simp
  have hX : 8 * (32 * (control.toNat % 2) + sx.toNat / 8) + (Bits.low3 sx).val =
      256 * (control.toNat % 2) + sx.toNat := by
    simp only [Bits.low3]
    omega
  rw [hlast, hwatching.hit (by omega), hX, Scene.meetsBehind_of_blank hline]
  simp only [scene, shows_iff hbackground hsprites]

/-- Where all pixels are set, a sprite behind the background that reaches into the last column meets
it one column before. -/
theorem zeroHit_setUp_solid :
    let p : Ppu :=
      { powerOn with
        beam := { line := 250, dot := 7 }
        sprites := ((Vector.replicate 256 0).set 0 100).set 2 0xE0 |>.set 3 250 }
    let b : Board :=
      { prgRom := #[0xEA], chr := #[0xFF], chrIsRam := false, prgRam := .replicate _ 0,
        wired := .vertical, chip := .nrom }
    ∃ n, (Ppu.dot^[n] (setUp p b 3 5 0x21 0x18)).1.beam.entersVblank = true ∧
      (Ppu.dot^[n + 1] (setUp p b 3 5 0x21 0x18)).1.status.zeroHit = true := by
  intro p b
  obtain ⟨n, hn, -, hhit⟩ := zeroHit_setUp p b 3 5 0x21 0x18 (by decide) (by decide) (by decide)
    (by decide) (by decide)
  have hfirst : Sprite.ofMemory p.sprites 0 = ⟨100, 0, 0xE0, 250⟩ := by
    simp [Sprite.ofMemory, p]
  have hchr (addr : UInt16) : b.chrRead addr = 0xFF := by
    have hindex : b.chrIndex addr = 0 := Nat.lt_one_iff.1 (b.chrIndex_lt addr (by decide))
    rw [Board.chrRead, hindex]
    rfl
  refine ⟨n, hn, hhit.2 ⟨116, 254, by decide, by decide, by decide, Or.inl (by decide), ?_, ?_⟩⟩
  · simp only [Scene.pixel, Scene.rowLow, Scene.rowHigh, hchr]
    decide
  · rw [hfirst]
    refine ⟨15, by decide, 4, by decide, by decide, by decide, ?_⟩
    simp only [Sprite.pixelAt, patternPixel, hchr]
    decide

end Nes.Ppu
