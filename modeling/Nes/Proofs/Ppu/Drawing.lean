import Nes.Proofs.Ppu.Beam
import Nes.Proofs.Ppu.Pipeline
import Nes.Proofs.Ppu.Tick

/-!
# Drawing a picture

Between two vertical blanks the beam goes over the lines of a picture.
`Fetching s k Y fineX cart p` says, for every place of the beam, what the picture unit holds of the
background there: on a line of the picture the pipeline of its line of the plane, at the end of a
line that of the next one, and on the line before the first one the position of the top left.
`Drawing s k Y fineX cart p` adds what the beam leaves behind when no sprites are shown: the colours
of the scene.

Each field is kept by a dot (`Fetching.row_tick` to `Fetching.prefetch_tick`, `Drawing.drawn_tick`),
for each reason there is to fetch or not to fetch at a dot of a line (`fetchBackground_of_idle` to
`fetchBackground_of_again`), and so the whole is (`Fetching.step`, `Drawing.step`).
-/

namespace Nes.Ppu

variable {γ : Type} [PictureBus γ]

/-! ### The dots of a line -/

theorem v_render (p : Ppu) (cart : γ) :
    (p.render cart).v =
      if p.beam.preRender && 280 ≤ p.beam.dot && p.beam.dot ≤ 304 then
        (p.fetchBackground cart).v.takeY p.t
      else (p.fetchBackground cart).v := by
  have hbeam : p.beam = (p.fetchBackground cart).beam :=
    (congrArg Screen.beam (screen_fetchBackground p cart)).symm
  have ht : p.t = (p.fetchBackground cart).t :=
    (congrArg Setting.t (setting_fetchBackground p cart)).symm
  have htake : ∀ q r : Ppu, q.beam = r.beam → q.v = r.v → q.t = r.t →
      (if q.beam.preRender && 280 ≤ q.beam.dot && q.beam.dot ≤ 304 then
        { q with v := q.v.takeY q.t } else q).v =
      if r.beam.preRender && 280 ≤ r.beam.dot && r.beam.dot ≤ 304 then r.v.takeY r.t else r.v := by
    intro q r hb hv ht
    rw [hb]
    split
    · rw [← hv, ← ht]
    · exact hv
  rw [hbeam, ht]
  simp only [render]
  refine htake _ _ ?_ ?_ ?_ <;> split_ifs <;> rfl

theorem background_render (p : Ppu) (cart : γ) :
    (p.render cart).background = (p.fetchBackground cart).background := by
  simp only [render]
  split_ifs <;> rfl

/-- On some dots nothing is fetched. -/
theorem fetchBackground_of_idle {p : Ppu} (cart : γ)
    (h : p.beam.dot < 2 ∨ 258 ≤ p.beam.dot ∧ p.beam.dot ≤ 320 ∨ p.beam.dot = 339) :
    p.fetchBackground cart = p := by
  have h1 : ((2 ≤ p.beam.dot && p.beam.dot ≤ 257) ||
      (321 ≤ p.beam.dot && p.beam.dot ≤ 337)) = false := by
    simp only [Bool.or_eq_false_iff, Bool.and_eq_false_iff, decide_eq_false_iff_not]
    omega
  have h2 : (p.beam.dot == 256) = false := by simp only [beq_eq_false_iff_ne]; omega
  have h3 : (p.beam.dot == 257) = false := by simp only [beq_eq_false_iff_ne]; omega
  have h4 : (p.beam.dot == 338 || p.beam.dot == 340) = false := by
    simp only [Bool.or_eq_false_iff, beq_eq_false_iff_ne]
    omega
  simp only [fetchBackground, h1, h2, h3, h4, Bool.false_eq_true, ↓reduceIte]

/-- On most of the others, the registers are shifted and a phase of the fetch follows. -/
theorem fetchBackground_of_phase {p : Ppu} (cart : γ)
    (h : 2 ≤ p.beam.dot ∧ p.beam.dot ≤ 255 ∨ 321 ≤ p.beam.dot ∧ p.beam.dot ≤ 337) :
    p.fetchBackground cart =
      fetchStep { p with background := p.background.shift } cart ((p.beam.dot - 1) % 8) := by
  have h1 : ((2 ≤ p.beam.dot && p.beam.dot ≤ 257) ||
      (321 ≤ p.beam.dot && p.beam.dot ≤ 337)) = true := by
    simp only [Bool.or_eq_true, Bool.and_eq_true, decide_eq_true_eq]
    omega
  have h2 : (p.beam.dot == 256) = false := by simp only [beq_eq_false_iff_ne]; omega
  have h3 : (p.beam.dot == 257) = false := by simp only [beq_eq_false_iff_ne]; omega
  have h4 : (p.beam.dot == 338 || p.beam.dot == 340) = false := by
    simp only [Bool.or_eq_false_iff, beq_eq_false_iff_ne]
    omega
  simp only [fetchBackground, h1, h2, h3, h4, Bool.false_eq_true, ↓reduceIte]

/-- After the last column, the address moves on to the next line too. -/
theorem fetchBackground_of_lastColumn {p : Ppu} (cart : γ) (h : p.beam.dot = 256) :
    p.fetchBackground cart =
      { fetchStep { p with background := p.background.shift } cart 7 with
        v := (fetchStep { p with background := p.background.shift } cart 7).v.nextRow } := by
  simp [fetchBackground, h]

/-- Then it takes the column of the next line's first tile. -/
theorem v_fetchBackground_of_lineEnd {p : Ppu} (cart : γ) (h : p.beam.dot = 257) :
    (p.fetchBackground cart).v = p.v.takeX p.t := by
  simp [fetchBackground, h, fetchStep, loadBackground, fetchTile]

/-- At the end of the line, the number of the next tile is fetched again. -/
theorem fetchBackground_of_again {p : Ppu} (cart : γ)
    (h : p.beam.dot = 338 ∨ p.beam.dot = 340) : p.fetchBackground cart = p.fetchTile cart := by
  rcases h with h | h <;> simp [fetchBackground, h]

/-! ### The state of a picture -/

/-- The picture unit between two vertical blanks, while it fetches the background of the scene `s`
with the column `k` of tiles, the line `Y` of the plane and the fine scroll `fineX` at the top
left. -/
structure Fetching (s : Scene) (k Y : Nat) (fineX : Fin 8) (cart : γ) (p : Ppu) : Prop where
  /-- The scene. -/
  scene : p.scene cart = s
  /-- The position of the top left. -/
  scroll : p.t = .atTile k Y
  /-- The column within its tile. -/
  fine : p.fineX = fineX
  /-- The beam is in the frame. -/
  inFrame : p.beam.InFrame
  /-- On a line of the picture, its line of the plane is fetched. -/
  row : p.beam.line < 240 → p.beam.dot ≤ 256 →
    Pipeline s k (Y + p.beam.line) (max p.beam.dot 2 + 15) p.v p.background
  /-- Once it is fetched, the address has the row of the next one. -/
  rowEnd : p.beam.line < 240 → p.beam.dot = 257 → ∃ k', p.v = .atTile k' (Y + p.beam.line + 1)
  /-- Before the first line, the address has the column of the top left, and then its row. -/
  column : p.beam.line = 261 → 258 ≤ p.beam.dot → p.beam.dot ≤ 280 → p.v.takeX p.t = p.v
  /-- At the end of a line, the next one is fetched. -/
  prefetch : p.beam.line < 240 ∧ 258 ≤ p.beam.dot ∨ p.beam.line = 261 ∧ 281 ≤ p.beam.dot →
    Pipeline s k (Y + (p.beam.line + 1) % 262) (min (p.beam.dot - 321) 17) p.v p.background

/-- The picture unit between two vertical blanks, while it draws that background without sprites. -/
structure Drawing (s : Scene) (k Y : Nat) (fineX : Fin 8) (cart : γ) (p : Ppu) : Prop
    extends Fetching s k Y fineX cart p where
  /-- The beam leaves the colours of the scene behind. -/
  drawn : p.beam.line ≤ 240 ∨ p.beam.line = 241 ∧ p.beam.dot ≤ 1 → ∀ y < 240, ∀ x < 256,
    y < p.beam.line ∨ y = p.beam.line ∧ x + 1 < p.beam.dot →
      p.back[y * 256 + x]? = some (s.colour (8 * k + fineX.val + x) (Y + y) x)

theorem scene_tick (p : Ppu) (cart : γ) : (p.tick cart).scene cart = p.scene cart := by
  have hs := setting_tick p cart
  simp only [scene, Scene.mk.injEq, true_and]
  exact ⟨congrArg Setting.vram hs, congrArg Setting.palette hs, congrArg Setting.control hs,
    congrArg Setting.mask hs⟩

/-- On a line that is worked on, the flags apart, the address is what the work makes of it. -/
theorem v_tick_of_rendersLine {p : Ppu} {cart : γ} (hr : p.rendersLine = true)
    (he : p.endsFlags = false) : (p.tick cart).v = (p.render cart).v := by
  rw [v_tick, prepared_of_rendersLine cart he hr]

/-- So are the registers. -/
theorem background_tick_of_rendersLine {p : Ppu} {cart : γ} (hr : p.rendersLine = true)
    (he : p.endsFlags = false) :
    (p.tick cart).background = (p.fetchBackground cart).background := by
  rw [background_tick, prepared_of_rendersLine cart he hr, background_render]

/-- The colour where the background meets no sprite. -/
theorem paletteEntry_mix (p : Ppu) {pixel palette : Nat} (hpixel : pixel < 4)
    (hpalette : palette < 4) :
    p.paletteEntry (mix pixel palette {}) =
      if pixel = 0 then p.palette[0] else p.palette.getD (4 * palette + pixel) 0 := by
  have hindex : ∀ palette < 4, ∀ pixel < 4, pixel ≠ 0 →
      paletteIndex (UInt16.ofNat (0x3F00 + palette * 4 + pixel)) = 4 * palette + pixel := by
    decide
  by_cases h : pixel = 0
  · have hmix : mix pixel palette {} = 0x3F00 := by simp [mix, h]
    rw [if_pos h, hmix]
    rfl
  · have hi : 4 * palette + pixel < 32 := by omega
    have hmix : mix pixel palette {} = UInt16.ofNat (0x3F00 + palette * 4 + pixel) := by
      simp only [mix, h, ↓reduceIte]
      rfl
    rw [if_neg h, hmix]
    simp only [paletteEntry, hindex palette hpalette pixel hpixel h]
    simp [Vector.getD, hi]

section Step

variable {s : Scene} {k Y : Nat} {fineX : Fin 8} {cart : γ} {p : Ppu}

/-- The number of the tile that is fetched again is the same. -/
theorem Pipeline.fetchTile {n : Nat} (h : Pipeline (p.scene cart) k Y n p.v p.background)
    (h0 : 0 < n) (h7 : n % 8 ≠ 0) :
    Pipeline (p.scene cart) k Y n (p.fetchTile cart).v (p.fetchTile cart).background := by
  have htile : (p.fetchTile cart).background = p.background := by
    have ht : p.readMemory cart (UInt16.ofNat p.v.tileAddr) = p.background.tile := by
      rw [h.position, readMemory_tileAddr, h.tile h0, show (n - 1) / 8 = n / 8 by omega]
    simp only [Ppu.fetchTile, ht]
  rw [htile]
  exact h

theorem rendersLine_of_line (hb : p.mask.background = true)
    (hline : p.beam.line < 240 ∨ p.beam.line = 261) : p.rendersLine = true := by
  simp only [rendersLine, Mask.rendering, hb, Bool.true_or, Bool.true_and, Bool.or_eq_true]
  exact hline.imp decide_eq_true beq_iff_eq.2

theorem endsFlags_of_line (hline : p.beam.line ≠ 261) : p.endsFlags = false := by
  simp [endsFlags, Beam.preRender, preRenderLine, hline]

theorem endsFlags_of_dot (hdot : p.beam.dot ≠ 1) : p.endsFlags = false := by
  simp [endsFlags, hdot]

/-- The address after a dot of a visible line. -/
theorem v_tick_of_line (hb : p.mask.background = true) (hline : p.beam.line < 240) :
    (p.tick cart).v = (p.fetchBackground cart).v := by
  have hpre : p.beam.preRender = false := by
    simp only [Beam.preRender, preRenderLine, beq_eq_false_iff_ne]
    omega
  rw [v_tick_of_rendersLine (rendersLine_of_line hb (Or.inl hline)) (endsFlags_of_line (by omega)),
    v_render, hpre]
  rfl

/-- The address after a dot of the line before the first one, which takes the row of the top
left. -/
theorem v_tick_of_preRender (hb : p.mask.background = true) (hline : p.beam.line = 261)
    (hdot : p.beam.dot ≠ 1) :
    (p.tick cart).v = if 280 ≤ p.beam.dot ∧ p.beam.dot ≤ 304 then
      (p.fetchBackground cart).v.takeY p.t else (p.fetchBackground cart).v := by
  have hpre : p.beam.preRender = true := beq_iff_eq.2 hline
  rw [v_tick_of_rendersLine (rendersLine_of_line hb (Or.inr hline)) (endsFlags_of_dot hdot),
    v_render, hpre]
  simp only [Bool.true_and, Bool.and_eq_true, decide_eq_true_eq]

theorem background_tick_of_line (hb : p.mask.background = true) (hline : p.beam.line < 240) :
    (p.tick cart).background = (p.fetchBackground cart).background :=
  background_tick_of_rendersLine (rendersLine_of_line hb (Or.inl hline))
    (endsFlags_of_line (by omega))

theorem background_tick_of_preRender (hb : p.mask.background = true) (hline : p.beam.line = 261)
    (hdot : p.beam.dot ≠ 1) :
    (p.tick cart).background = (p.fetchBackground cart).background :=
  background_tick_of_rendersLine (rendersLine_of_line hb (Or.inr hline)) (endsFlags_of_dot hdot)

/-- What has been fetched for the first columns stays until the beam is there. -/
theorem Pipeline.wait (h : Pipeline (p.scene cart) k Y 17 p.v p.background)
    (hdot : p.beam.dot < 2 ∨ 338 ≤ p.beam.dot ∧ p.beam.dot ≤ 340) :
    Pipeline (p.scene cart) k Y 17 (p.fetchBackground cart).v
      (p.fetchBackground cart).background := by
  by_cases hagain : p.beam.dot = 338 ∨ p.beam.dot = 340
  · rw [fetchBackground_of_again cart hagain]
    exact h.fetchTile (by decide) (by decide)
  · rw [fetchBackground_of_idle cart (by omega)]
    exact h

/-- A dot with a phase of the fetch. -/
theorem Pipeline.phase {n : Nat} (h : Pipeline (p.scene cart) k Y n p.v p.background)
    (hdot : 2 ≤ p.beam.dot ∧ p.beam.dot ≤ 255 ∧ n = p.beam.dot + 15 ∨
      321 ≤ p.beam.dot ∧ p.beam.dot ≤ 337 ∧ n = p.beam.dot - 321) :
    Pipeline (p.scene cart) k Y (n + 1) (p.fetchBackground cart).v
      (p.fetchBackground cart).background := by
  rw [fetchBackground_of_phase cart (by omega), show (p.beam.dot - 1) % 8 = n % 8 by omega]
  exact h.step

/-- The registers from which a column of the picture is drawn. -/
theorem Fetching.column_fetch (h : Fetching s k Y fineX cart p) (hline : p.beam.line < 240)
    (h1 : 1 ≤ p.beam.dot) (h256 : p.beam.dot ≤ 256) :
    ∃ v, Pipeline s k (Y + p.beam.line) (p.beam.dot - 1 + 17) v
      (p.fetchBackground cart).background ∧
      (p.fetchBackground cart).v = if p.beam.dot = 256 then v.nextRow else v := by
  have hrow := h.row hline h256
  obtain rfl := h.scene
  by_cases hd1 : p.beam.dot = 1
  · rw [hd1] at hrow ⊢
    exact ⟨_, hrow.wait (by omega), rfl⟩
  rw [show max p.beam.dot 2 + 15 = p.beam.dot + 15 by omega] at hrow
  rw [show p.beam.dot - 1 + 17 = p.beam.dot + 15 + 1 by omega]
  by_cases hd256 : p.beam.dot = 256
  · have hstep := hrow.step
    rw [show (p.beam.dot + 15) % 8 = 7 by omega] at hstep
    rw [fetchBackground_of_lastColumn cart hd256]
    exact ⟨_, hstep, (if_pos hd256).symm⟩
  · exact ⟨_, hrow.phase (by omega), (if_neg hd256).symm⟩

/-- The fetch of the first columns of the next line, at the end of a line. -/
theorem Fetching.prefetch_fetch (h : Fetching s k Y fineX cart p)
    (hline : p.beam.line < 240 ∧ 258 ≤ p.beam.dot ∨ p.beam.line = 261 ∧ 281 ≤ p.beam.dot) :
    Pipeline s k (Y + (p.beam.line + 1) % 262) (min (p.beam.dot + 1 - 321) 17)
      (p.fetchBackground cart).v (p.fetchBackground cart).background := by
  have hpre := h.prefetch hline
  have hdot : p.beam.dot < 341 := h.inFrame.dot_lt
  obtain rfl := h.scene
  by_cases hidle : p.beam.dot ≤ 320
  · rw [fetchBackground_of_idle cart (by omega),
      show min (p.beam.dot + 1 - 321) 17 = min (p.beam.dot - 321) 17 by omega]
    exact hpre
  by_cases hphase : p.beam.dot ≤ 337
  · rw [show min (p.beam.dot - 321) 17 = p.beam.dot - 321 by omega] at hpre
    rw [show min (p.beam.dot + 1 - 321) 17 = p.beam.dot - 321 + 1 by omega]
    exact hpre.phase (by omega)
  · rw [show min (p.beam.dot - 321) 17 = 17 by omega] at hpre
    rw [show min (p.beam.dot + 1 - 321) 17 = 17 by omega]
    exact hpre.wait (by omega)

/-! ### A dot keeps each part of the state -/

section Fetch

variable (h : Fetching s k Y fineX cart p) (hb : s.mask.background = true)

include h hb

theorem Fetching.mask_background : p.mask.background = true := by
  rw [← hb, ← h.scene]
  rfl

/-- At the end of a line, the dot after which the next one starts included. -/
theorem Fetching.prefetch_of_tick
    (hline : p.beam.line < 240 ∧ 258 ≤ p.beam.dot ∨ p.beam.line = 261 ∧ 281 ≤ p.beam.dot) :
    Pipeline s k (Y + (p.beam.line + 1) % 262) (min (p.beam.dot + 1 - 321) 17)
      (p.tick cart).v (p.tick cart).background := by
  have hfetch := h.prefetch_fetch hline
  have hm := h.mask_background hb
  rcases hline with ⟨hline, hdot⟩ | ⟨hline, hdot⟩
  · rw [v_tick_of_line hm hline, background_tick_of_line hm hline]
    exact hfetch
  · rw [v_tick_of_preRender hm hline (by omega), background_tick_of_preRender hm hline (by omega)]
    split_ifs with htake
    · rw [show min (p.beam.dot + 1 - 321) 17 = 0 by omega] at hfetch ⊢
      rw [hfetch.position, h.scroll, hline]
      exact Pipeline.start s k Y _
    · exact hfetch

theorem Fetching.row_tick (hline : (p.tick cart).beam.line < 240)
    (hdot : (p.tick cart).beam.dot ≤ 256) :
    Pipeline s k (Y + (p.tick cart).beam.line) (max (p.tick cart).beam.dot 2 + 15)
      (p.tick cart).v (p.tick cart).background := by
  have hm := h.mask_background hb
  rw [beam_tick] at hline hdot ⊢
  rcases p.beam.advance_line_dot p.mask.rendering with
    ⟨_, hl, hd⟩ | ⟨hend, hd, hl⟩
  · rw [hl] at hline
    rw [hd] at hdot
    rw [hl, hd, v_tick_of_line hm hline, background_tick_of_line hm hline]
    by_cases hd0 : p.beam.dot = 0
    · have hrow := h.row hline (by omega)
      rw [hd0] at hrow ⊢
      obtain rfl := h.scene
      exact hrow.wait (by omega)
    · obtain ⟨v, hrow, hv⟩ := h.column_fetch hline (by omega) (by omega)
      rw [hv, if_neg (by omega)]
      rw [show max (p.beam.dot + 1) 2 + 15 = p.beam.dot - 1 + 17 by omega]
      exact hrow
  · have hpre := h.prefetch_of_tick hb (by omega)
    rw [hd]
    rw [show min (p.beam.dot + 1 - 321) 17 = 17 by omega] at hpre
    rw [show (p.beam.advance p.mask.rendering).line = (p.beam.line + 1) % 262 by omega]
    exact hpre

theorem Fetching.rowEnd_tick (hline : (p.tick cart).beam.line < 240)
    (hdot : (p.tick cart).beam.dot = 257) :
    ∃ k', (p.tick cart).v = .atTile k' (Y + (p.tick cart).beam.line + 1) := by
  have hm := h.mask_background hb
  rw [beam_tick] at hline hdot ⊢
  rcases p.beam.advance_line_dot p.mask.rendering with ⟨_, hl, hd⟩ | ⟨_, hd, _⟩
  · rw [hl] at hline
    obtain ⟨v, hrow, hv⟩ := h.column_fetch hline (by omega) (by omega)
    rw [hl, v_tick_of_line hm hline, hv, if_pos (by omega), hrow.position, Scroll.nextRow_atTile]
    exact ⟨_, rfl⟩
  · omega

theorem Fetching.column_tick (hline : (p.tick cart).beam.line = 261)
    (h258 : 258 ≤ (p.tick cart).beam.dot) (h280 : (p.tick cart).beam.dot ≤ 280) :
    (p.tick cart).v.takeX (p.tick cart).t = (p.tick cart).v := by
  have hm := h.mask_background hb
  have ht : (p.tick cart).t = p.t := congrArg Setting.t (setting_tick p cart)
  rw [beam_tick] at hline h258 h280
  rcases p.beam.advance_line_dot p.mask.rendering with ⟨_, hl, hd⟩ | ⟨_, hd, _⟩
  · rw [hl] at hline
    rw [ht, v_tick_of_preRender hm hline (by omega), if_neg (by omega)]
    by_cases h257 : p.beam.dot = 257
    · rw [v_fetchBackground_of_lineEnd cart h257]
      rfl
    · rw [fetchBackground_of_idle cart (by omega)]
      exact h.column hline (by omega) (by omega)
  · omega

theorem Fetching.prefetch_tick
    (hline : (p.tick cart).beam.line < 240 ∧ 258 ≤ (p.tick cart).beam.dot ∨
      (p.tick cart).beam.line = 261 ∧ 281 ≤ (p.tick cart).beam.dot) :
    Pipeline s k (Y + ((p.tick cart).beam.line + 1) % 262)
      (min ((p.tick cart).beam.dot - 321) 17) (p.tick cart).v (p.tick cart).background := by
  have hm := h.mask_background hb
  rw [beam_tick] at hline ⊢
  rcases p.beam.advance_line_dot p.mask.rendering with ⟨_, hl, hd⟩ | ⟨_, hd, _⟩
  · rw [hl, hd] at hline ⊢
    by_cases h257 : p.beam.line < 240 ∧ p.beam.dot = 257
    · obtain ⟨k', hv⟩ := h.rowEnd h257.1 h257.2
      rw [show min (p.beam.dot + 1 - 321) 17 = 0 by omega,
        show (p.beam.line + 1) % 262 = p.beam.line + 1 by omega, ← Nat.add_assoc,
        v_tick_of_line hm h257.1, v_fetchBackground_of_lineEnd cart h257.2, hv, h.scroll,
        Scroll.takeX_atTile]
      exact Pipeline.start s k _ _
    by_cases h280 : p.beam.line = 261 ∧ p.beam.dot = 280
    · have hcolumn := h.column h280.1 (by omega) (by omega)
      rw [show min (p.beam.dot + 1 - 321) 17 = 0 by omega, h280.1,
        v_tick_of_preRender hm h280.1 (by omega), if_pos (by omega),
        fetchBackground_of_idle cart (by omega), ← hcolumn, h.scroll]
      exact Pipeline.start s k Y _
    · exact h.prefetch_of_tick hb (by omega)
  · omega

/-- **A dot keeps the fetch of the background.** -/
theorem Fetching.step : Fetching s k Y fineX cart (p.tick cart) where
  scene := (scene_tick p cart).trans h.scene
  scroll := (congrArg Setting.t (setting_tick p cart)).trans h.scroll
  fine := (congrArg Setting.fineX (setting_tick p cart)).trans h.fine
  inFrame := by
    rw [beam_tick]
    exact h.inFrame.advance _
  row := h.row_tick hb
  rowEnd := h.rowEnd_tick hb
  column := h.column_tick hb
  prefetch := h.prefetch_tick hb

omit hb in
theorem Fetching.mask_prepared : (p.prepared cart).mask = s.mask := by
  rw [← h.scene]
  exact congrArg Setting.mask (setting_prepared p cart)

/-- The background at the beam is that of the scene. -/
theorem Fetching.backgroundAt_prepared (hline : p.beam.line < 240) (h1 : 1 ≤ p.beam.dot)
    (h256 : p.beam.dot ≤ 256) {c : Nat} (hc : c = p.beam.dot - 1) :
    (p.prepared cart).backgroundAt c =
      if s.mask.showsBackground c then
        (s.pixel (8 * k + fineX.val + c) (Y + p.beam.line),
          s.tilePalette (8 * k + fineX.val + c) (Y + p.beam.line))
      else (0, 0) := by
  obtain ⟨v, hrow, -⟩ := h.column_fetch hline h1 h256
  have hfine : (p.prepared cart).fineX = fineX := by
    rw [← h.fine]
    exact congrArg Setting.fineX (setting_prepared p cart)
  have hbackground : (p.prepared cart).background = (p.fetchBackground cart).background := by
    rw [← background_tick, background_tick_of_line (h.mask_background hb) hline]
  rw [← hbackground, ← hc] at hrow
  rw [backgroundAt, h.mask_prepared, hfine, hrow.pixel_eq fineX, hrow.palette_eq fineX]

end Fetch

/-! ### A dot keeps the picture -/

variable (h : Drawing s k Y fineX cart p) (hb : s.mask.background = true)

include h hb

/-- The byte of palette memory behind the pixel at the beam is that of the scene. -/
theorem Drawing.paletteEntry_prepared (hs : s.mask.sprites = false) (hline : p.beam.line < 240)
    (h1 : 1 ≤ p.beam.dot) (h256 : p.beam.dot ≤ 256) {c : Nat} (hc : c = p.beam.dot - 1) :
    (p.prepared cart).paletteEntry
        (mix ((p.prepared cart).backgroundAt c).1 ((p.prepared cart).backgroundAt c).2
          ((p.prepared cart).spriteAt c)) =
      s.entry (8 * k + fineX.val + c) (Y + p.beam.line) c := by
  have hpalette : (p.prepared cart).palette = s.palette := by
    rw [← h.scene]
    exact congrArg Setting.palette (setting_prepared p cart)
  have hsprite : (p.prepared cart).spriteAt c = {} := by
    simp [spriteAt, h.mask_prepared, Mask.showsSprites, hs]
  have hpixel_lt : s.pixel (8 * k + fineX.val + c) (Y + p.beam.line) < 4 := by
    rw [Scene.pixel_eq]
    have := (s.highBit (Y + p.beam.line) (8 * k + fineX.val + c)).toNat_lt
    have := (s.lowBit (Y + p.beam.line) (8 * k + fineX.val + c)).toNat_lt
    omega
  have hpal_lt : s.tilePalette (8 * k + fineX.val + c) (Y + p.beam.line) < 4 :=
    Nat.mod_lt _ (by decide)
  rw [hsprite, h.backgroundAt_prepared hb hline h1 h256 hc, Scene.entry]
  by_cases hshow : s.mask.showsBackground c = true
  · simp only [hshow, ↓reduceIte, Bool.true_eq_false, false_or]
    rw [paletteEntry_mix _ hpixel_lt hpal_lt, hpalette]
  · rw [Bool.not_eq_true] at hshow
    simp only [hshow, Bool.false_eq_true, ↓reduceIte, true_or]
    rw [paletteEntry_mix _ (by decide) (by decide), if_pos rfl, hpalette]

/-- The pixel at the beam is that of the scene. -/
theorem Drawing.back_drawPixel (hs : s.mask.sprites = false) (hline : p.beam.line < 240)
    (h1 : 1 ≤ p.beam.dot) (h256 : p.beam.dot ≤ 256) :
    (p.prepared cart).drawPixel.back =
      p.back.setIfInBounds (p.beam.line * 256 + (p.beam.dot - 1))
        (s.colour (8 * k + fineX.val + (p.beam.dot - 1)) (Y + p.beam.line) (p.beam.dot - 1)) := by
  have hbeam : (p.prepared cart).beam = p.beam := congrArg Screen.beam (screen_prepared p cart)
  have hback : (p.prepared cart).back = p.back := congrArg Screen.back (screen_prepared p cart)
  simp only [drawPixel, hbeam, hback, h.mask_prepared, width,
    h.paletteEntry_prepared hb hs hline h1 h256 rfl]
  rfl

theorem Drawing.drawn_tick (hs : s.mask.sprites = false) (he : p.beam.entersVblank = false)
    (hline : (p.tick cart).beam.line ≤ 240 ∨
      (p.tick cart).beam.line = 241 ∧ (p.tick cart).beam.dot ≤ 1) :
    ∀ y < 240, ∀ x < 256,
      y < (p.tick cart).beam.line ∨
        y = (p.tick cart).beam.line ∧ x + 1 < (p.tick cart).beam.dot →
      (p.tick cart).back[y * 256 + x]? = some (s.colour (8 * k + fineX.val + x) (Y + y) x) := by
  intro y hy x hx hbefore
  rw [beam_tick] at hline hbefore
  rw [back_tick, he, if_neg Bool.false_ne_true]
  have hold : y < p.beam.line ∨ y = p.beam.line ∧ x + 1 < p.beam.dot →
      p.beam.line ≤ 240 ∨ p.beam.line = 241 ∧ p.beam.dot ≤ 1 →
      (if p.beam.drawing then (p.prepared cart).drawPixel.back else p.back)[y * 256 + x]? =
        some (s.colour (8 * k + fineX.val + x) (Y + y) x) := by
    intro hlt hframe
    have hcell := h.drawn hframe y hy x hx hlt
    split_ifs with hd
    · obtain ⟨hl, h1, h256⟩ := Beam.drawing_iff.1 hd
      rw [h.back_drawPixel hb hs hl h1 h256, Vector.getElem?_setIfInBounds_ne (by omega)]
      exact hcell
    · exact hcell
  rcases p.beam.advance_line_dot p.mask.rendering with ⟨_, hl, hd⟩ | ⟨_, hd, hl⟩
  · rw [hl, hd] at hbefore hline
    by_cases hnew : y = p.beam.line ∧ x + 1 = p.beam.dot
    · obtain ⟨rfl, hx1⟩ := hnew
      have hcell : p.beam.line * 256 + x < 256 * 240 := by omega
      rw [if_pos (Beam.drawing_iff.2 (by omega)), h.back_drawPixel hb hs hy (by omega) (by omega),
        ← hx1,
        Nat.add_sub_cancel, Vector.getElem?_setIfInBounds_self_of_lt hcell]
    · exact hold (by omega) (by omega)
  · exact hold (by omega) (by omega)

/-- **A dot keeps the state of the picture,** until the vertical blank starts. -/
theorem Drawing.step (hs : s.mask.sprites = false) (he : p.beam.entersVblank = false) :
    Drawing s k Y fineX cart (p.tick cart) where
  toFetching := h.toFetching.step hb
  drawn := h.drawn_tick hb hs he

end Step

end Nes.Ppu
