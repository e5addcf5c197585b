import Nes.Board.Basic
import Nes.Ppu.Access
import Nes.Proofs.Ppu.Drawing

/-!
# The picture of a background

A program that sets the scroll, the control and the mask register during the vertical blank
(`setUp`) and lets the picture unit work (`dots`) finds a picture at the next blank whose every
pixel is that of the plane of the nametables, on any board and whatever the picture unit did before
(`front_setUp`).
-/

namespace Nes.Ppu

/-- One dot, for the picture unit and its board. -/
def dot (s : Ppu × Board) : Ppu × Board := s.1.tickWith s.2

/-- The accesses that set up a picture: register 2 is read, the scroll position is written to
register 5, column first, and then the control and the mask register. -/
def setUp (p : Ppu) (b : Board) (sx sy control mask : UInt8) : Ppu × Board :=
  let p := (p.readRegister b 0x2002).2
  let (p, b) := p.writeRegister b 0x2005 sx
  let (p, b) := p.writeRegister b 0x2005 sy
  let (p, b) := p.writeRegister b 0x2000 control
  p.writeRegister b 0x2001 mask

theorem setUp_t (p : Ppu) (b : Board) (sx sy control mask : UInt8) :
    (setUp p b sx sy control mask).1.t =
      { coarseX := Bits.high5 sx, coarseY := Bits.high5 sy, tableX := control &&& 1 != 0,
        tableY := control &&& 2 != 0, fineY := Bits.low3 sy } := rfl

/-- The position that is set up, in the plane. -/
theorem setUp_scroll (p : Ppu) (b : Board) (sx sy control mask : UInt8) (hsy : sy.toNat < 240) :
    (setUp p b sx sy control mask).1.t =
      .atTile (32 * (control.toNat % 2) + sx.toNat / 8)
        (240 * (control.toNat / 2 % 2) + sy.toNat) := by
  have hsx := sx.toNat_lt
  have hbit : ∀ i : Nat, ∀ mask : UInt8, mask.toNat = 2 ^ i →
      (control &&& mask != 0) = (control.toNat / 2 ^ i % 2 == 1) := by
    intro i mask hmask
    rw [and_bit_ne_zero control mask hmask, Nat.testBit_eq_decide_div_mod_eq]
    rfl
  have hx : control.toNat % 2 < 2 := Nat.mod_lt _ (by decide)
  rw [setUp_t, hbit 0 1 rfl, hbit 1 2 rfl]
  simp only [Scroll.atTile, Scroll.mk.injEq]
  refine ⟨Fin.ext ?_, Fin.ext ?_, ?_, ?_, Fin.ext ?_⟩
  · simp only [Bits.high5]
    omega
  · simp only [Bits.high5]
    omega
  · rw [show (32 * (control.toNat % 2) + sx.toNat / 8) / 32 % 2 = control.toNat / 2 ^ 0 % 2 by
      omega]
  · rw [show (240 * (control.toNat / 2 % 2) + sy.toNat) / 240 % 2 = control.toNat / 2 ^ 1 % 2 by
      omega]
  · simp only [Bits.low3]
    omega

/-! ### To the next vertical blank -/

/-- A dot of the board changes nothing that can be seen. -/
theorem scene_clockLine (p : Ppu) (b : Board) : p.scene (PictureBus.clockLine b) = p.scene b := by
  have hclock : b.clockLine.chrRead = b.chrRead ∧ b.clockLine.mirroring = b.mirroring := by
    rcases b with ⟨_, _, _, _, _, chip⟩
    cases chip <;> exact ⟨rfl, rfl⟩
  simp only [scene, Scene.mk.injEq, true_and, and_true]
  exact ⟨hclock.2, hclock.1⟩

theorem scene_dot (q : Ppu × Board) : (dot q).1.scene (dot q).2 = q.1.scene q.2 := by
  rw [← scene_tick q.1 q.2, dot, tickWith]
  dsimp only
  split
  · exact scene_clockLine _ q.2
  · rfl

theorem beam_dot (q : Ppu × Board) : (dot q).1.beam = q.1.beam.advance q.1.mask.rendering :=
  beam_tick q.1 q.2

/-- The next vertical blank comes, and what every dot keeps lasts until it does. -/
theorem exists_entersVblank {I : Ppu × Board → Prop} (hframe : ∀ q, I q → q.1.beam.InFrame)
    (hdot : ∀ q, I q → q.1.beam.entersVblank = false → I (dot q)) (q : Ppu × Board) (h : I q) :
    ∃ n, (dot^[n] q).1.beam.entersVblank = true ∧
      (∀ i < n, (dot^[i] q).1.beam.entersVblank = false) ∧ I (dot^[n] q) := by
  generalize hd : q.1.beam.toBlank = d
  induction d using Nat.strong_induction_on generalizing q with
  | _ d ih =>
    by_cases he : q.1.beam.entersVblank = true
    · exact ⟨0, he, fun i hi => absurd hi (Nat.not_lt_zero i), h⟩
    rw [Bool.not_eq_true] at he
    have hless : (dot q).1.beam.toBlank < d := by
      rw [beam_dot, ← hd]
      exact (Beam.toBlank_advance (hframe q h) _ he).1
    obtain ⟨n, hn, hbefore, hI⟩ := ih _ hless (dot q) (hdot q h he) rfl
    refine ⟨n + 1, hn, ?_, hI⟩
    rintro (_ | i) hi
    · exact he
    · exact hbefore i (Nat.lt_of_succ_lt_succ hi)

theorem Fetching.of_scene {s : Scene} {k Y : Nat} {fineX : Fin 8} {b b' : Board} {p : Ppu}
    (h : Fetching s k Y fineX b p) (hscene : p.scene b' = p.scene b) :
    Fetching s k Y fineX b' p :=
  { h with scene := hscene.trans h.scene }

theorem Fetching.dot {s : Scene} {k Y : Nat} {fineX : Fin 8} {q : Ppu × Board}
    (h : Fetching s k Y fineX q.2 q.1) (hb : s.mask.background = true) :
    Fetching s k Y fineX (dot q).2 (dot q).1 :=
  (h.step hb).of_scene ((scene_dot q).trans (scene_tick q.1 q.2).symm)

theorem Drawing.dot {s : Scene} {k Y : Nat} {fineX : Fin 8} {q : Ppu × Board}
    (h : Drawing s k Y fineX q.2 q.1) (hb : s.mask.background = true)
    (hs : s.mask.sprites = false) (he : q.1.beam.entersVblank = false) :
    Drawing s k Y fineX (Ppu.dot q).2 (Ppu.dot q).1 where
  toFetching := h.toFetching.dot hb
  drawn := (h.step hb hs he).drawn

/-- The picture is drawn until the next vertical blank comes. -/
theorem Drawing.run {s : Scene} {k Y : Nat} {fineX : Fin 8} (hb : s.mask.background = true)
    (hs : s.mask.sprites = false) (q : Ppu × Board) (h : Drawing s k Y fineX q.2 q.1) :
    ∃ n, (Ppu.dot^[n] q).1.beam.entersVblank = true ∧
      (∀ i < n, (Ppu.dot^[i] q).1.beam.entersVblank = false) ∧
      Drawing s k Y fineX (Ppu.dot^[n] q).2 (Ppu.dot^[n] q).1 :=
  exists_entersVblank (I := fun q => Drawing s k Y fineX q.2 q.1) (fun _ h => h.inFrame)
    (fun _ h he => h.dot hb hs he) q h

/-- The plane goes on at the other side where it ends. -/
theorem Scene.nametableByte_mod (s : Scene) (X Y offset : Nat) :
    s.nametableByte (X % 512) (Y % 480) offset = s.nametableByte X Y offset := by
  simp only [nametableByte, table, Nat.mod_mod]

theorem Scene.pixel_mod (s : Scene) (X Y : Nat) : s.pixel (X % 512) (Y % 480) = s.pixel X Y := by
  have htile : s.tile (X % 512) (Y % 480) = s.tile X Y := by
    rw [tile, tile, nametableByte_mod, show Y % 480 % 240 = Y % 240 by omega,
      show X % 512 % 256 = X % 256 by omega]
  simp only [pixel, rowLow, rowHigh, htile, show Y % 480 % 8 = Y % 8 by omega,
    show X % 512 % 8 = X % 8 by omega]

theorem Scene.colour_mod (s : Scene) (X Y column : Nat) :
    s.colour (X % 512) (Y % 480) column = s.colour X Y column := by
  have hpalette : s.tilePalette (X % 512) (Y % 480) = s.tilePalette X Y := by
    simp only [tilePalette, nametableByte_mod, show Y % 480 % 240 = Y % 240 by omega,
      show X % 512 % 256 = X % 256 by omega]
  rw [colour, entry, hpalette, pixel_mod, colour, entry]

/-- Nothing of a picture has been fetched while the vertical blank lasts. -/
theorem Fetching.start {p : Ppu} {cart : Board} {k Y : Nat} (hscroll : p.t = .atTile k Y)
    (hline : p.beam.line = 241 ∧ 2 ≤ p.beam.dot ∨ 242 ≤ p.beam.line ∧ p.beam.line ≤ 260)
    (hdot : p.beam.dot < 341) :
    Fetching (p.scene cart) k Y p.fineX cart p where
  scene := rfl
  scroll := hscroll
  fine := rfl
  inFrame := ⟨by change p.beam.line < 262; omega, hdot⟩
  row := fun h => by omega
  rowEnd := fun h => by omega
  column := fun h => by omega
  prefetch := fun h => by omega

/-- Nor has anything been drawn. -/
theorem Drawing.start {p : Ppu} {cart : Board} {k Y : Nat} (hscroll : p.t = .atTile k Y)
    (hline : p.beam.line = 241 ∧ 2 ≤ p.beam.dot ∨ 242 ≤ p.beam.line ∧ p.beam.line ≤ 260)
    (hdot : p.beam.dot < 341) :
    Drawing (p.scene cart) k Y p.fineX cart p where
  toFetching := Fetching.start hscroll hline hdot
  drawn := fun h => by omega

/-- **The picture is that of the plane.**  A program that sets up the scroll position `sx`, `sy`
within the tables that the two low bits of `control` name, at any time of the vertical blank, with
the background shown and no sprites, finds in the picture of the next one, in the row `py` and the
column `px`, the pixel of the plane at the position that is set up, `px` to the right and `py`
down. -/
theorem front_setUp (p : Ppu) (b : Board) (sx sy control mask : UInt8)
    (hline : p.beam.line = 241 ∧ 2 ≤ p.beam.dot ∨ 242 ≤ p.beam.line ∧ p.beam.line ≤ 260)
    (hdot : p.beam.dot < 341) (hsy : sy.toNat < 240) (hbackground : mask &&& 0x08 ≠ 0)
    (hsprites : mask &&& 0x10 = 0) :
    let start := setUp p b sx sy control mask
    let scene : Scene :=
      { vram := p.vram, mirroring := b.mirroring, chr := b.chrRead, palette := p.palette,
        control := ⟨control⟩, mask := ⟨mask⟩ }
    ∃ n, (Ppu.dot^[n] start).1.beam.entersVblank = true ∧
      (∀ i < n, (Ppu.dot^[i] start).1.beam.entersVblank = false) ∧
      ∀ py < 240, ∀ px < 256,
        (Ppu.dot^[n + 1] start).1.front[py * 256 + px]? =
          some (scene.colour ((256 * (control.toNat % 2) + sx.toNat + px) % 512)
            ((240 * (control.toNat / 2 % 2) + sy.toNat + py) % 480) px) := by
  intro start scene
  have hb : scene.mask.background = true := bne_iff_ne.2 hbackground
  have hs : scene.mask.sprites = false := bne_eq_false_iff_eq.2 hsprites
  have hstart : Drawing scene (32 * (control.toNat % 2) + sx.toNat / 8)
      (240 * (control.toNat / 2 % 2) + sy.toNat) (Bits.low3 sx) start.2 start.1 :=
    Drawing.start (setUp_scroll p b sx sy control mask hsy) hline hdot
  obtain ⟨n, hn, hbefore, hdrawing⟩ := hstart.run hb hs
  refine ⟨n, hn, hbefore, fun py hpy px hpx => ?_⟩
  have hfront : (Ppu.dot^[n + 1] start).1.front = (Ppu.dot^[n] start).1.back := by
    rw [Function.iterate_succ_apply']
    exact (front_tick _ _).trans (if_pos hn)
  obtain ⟨hline, hdot⟩ := Beam.entersVblank_iff.1 hn
  rw [hfront, hdrawing.drawn (by omega) py hpy px hpx (by omega), Scene.colour_mod]
  have hX : 8 * (32 * (control.toNat % 2) + sx.toNat / 8) + (Bits.low3 sx).val + px =
      256 * (control.toNat % 2) + sx.toNat + px := by
    simp only [Bits.low3]
    omega
  rw [hX]

/-- With tiles whose right halves are set, a pixel in a right half has the colour of its tile, and
one in a left half that of the backdrop. -/
theorem front_setUp_halves :
    let p : Ppu :=
      { powerOn with
        beam := { line := 241, dot := 2 }
        vram := .replicate _ 0xFF
        palette := .ofFn fun i => UInt8.ofNat (i.val + 0x12) }
    let b : Board :=
      { prgRom := #[0xEA], chr := #[0x0F], chrIsRam := false, prgRam := .replicate _ 0,
        wired := .vertical, chip := .nrom }
    ∃ n, (Ppu.dot^[n] (setUp p b 3 5 0x11 0x08)).1.beam.entersVblank = true ∧
      (Ppu.dot^[n + 1] (setUp p b 3 5 0x11 0x08)).1.front[100 * 256 + 10]? = some 0x3C7EEC ∧
      (Ppu.dot^[n + 1] (setUp p b 3 5 0x11 0x08)).1.front[100 * 256 + 14]? = some 0x3032EC := by
  intro p b
  obtain ⟨n, hn, -, hfront⟩ := front_setUp p b 3 5 0x11 0x08 (by decide) (by decide) (by decide)
    (by decide) (by decide)
  have hright := hfront 100 (by decide) 10 (by decide)
  have hleft := hfront 100 (by decide) 14 (by decide)
  have hchr (addr : UInt16) : b.chrRead addr = 0x0F := by
    have hindex : b.chrIndex addr = 0 := Nat.lt_one_iff.1 (b.chrIndex_lt addr (by decide))
    rw [Board.chrRead, hindex]
    rfl
  have hvram (i : Nat) (hi : i < 0x1000) : p.vram.getD i 0 = 0xFF := by
    simp [p, Vector.getD, hi]
  refine ⟨n, hn, hright.trans ?_, hleft.trans ?_⟩
  · simp only [Scene.colour, Scene.entry, Scene.pixel, Scene.rowLow, Scene.rowHigh, hchr,
      Scene.tilePalette, Scene.nametableByte]
    rw [hvram _ (by decide)]
    decide
  · simp only [Scene.colour, Scene.entry, Scene.pixel, Scene.rowLow, Scene.rowHigh, hchr]
    decide

end Nes.Ppu
