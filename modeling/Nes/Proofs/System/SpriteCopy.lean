import Nes.Proofs.Cpu.Stack
import Nes.Proofs.System.Deeds
import Nes.Proofs.System.Silent

/-!
# Copies into sprite memory

A write to `$4014` copies a page of the processor's addresses into sprite memory.  The picture unit
has a register for its sprite memory too, through which a program can put the same bytes there one
by one: each goes to the place that the address register tells, and the address moves on.

A row of bytes no longer than a page puts each into a place of its own, around the end of sprite
memory if need be (`Ppu.sprites_writeSprites`).  A copy and the row of writes through the register
leave the same picture unit, but for the byte last seen on the register bus
(`System.write_spritePort`).  Where memory or the board answers, reading the page changes nothing
(`System.read_page`), so that a copy is such a row of writes and a wait of the processor
(`System.copy_through_port`).
-/

namespace Nes

/-! ### Rows of bytes -/

namespace Ppu

theorem openBus_writeSprites (p : Ppu) (openBus : UInt8) (page : List UInt8) :
    ({ p with openBus } : Ppu).writeSprites page = { p.writeSprites page with openBus } := by
  induction page generalizing p with
  | nil => rfl
  | cons v page ih => exact ih (p.writeSprite v)

/-- A row of bytes changes sprite memory and the address within it, and nothing else. -/
theorem writeSprites_eq (p : Ppu) (page : List UInt8) :
    p.writeSprites page =
      { p with
        sprites := (p.writeSprites page).sprites
        spriteAddr := p.spriteAddr + UInt8.ofNat page.length } := by
  induction page generalizing p with
  | nil =>
    change p = { p with spriteAddr := p.spriteAddr + 0 }
    rw [UInt8.add_zero]
  | cons v page ih =>
    have hlength : p.spriteAddr + UInt8.ofNat (v :: page).length =
        p.spriteAddr + 1 + UInt8.ofNat page.length := by
      grind [UInt8.ofNat_add]
    rw [hlength]
    exact ih (p.writeSprite v)

/-- A byte goes to the place that the address tells. -/
theorem sprites_writeSprite (p : Ppu) (v i : UInt8) :
    (p.writeSprite v).sprites.get (p.spriteAddr + i).toFin =
      if i = 0 then v else p.sprites.get (p.spriteAddr + i).toFin := by
  have hplace : p.spriteAddr.toNat = (p.spriteAddr + i).toNat ↔ i = 0 := by
    rw [UInt8.toNat_inj]
    grind
  have hset : (p.writeSprite v).sprites.get (p.spriteAddr + i).toFin =
      if p.spriteAddr.toNat = (p.spriteAddr + i).toNat then v
      else p.sprites.get (p.spriteAddr + i).toFin :=
    Vector.getElem_set p.spriteAddr.toNat_lt (p.spriteAddr + i).toNat_lt
  simp only [hset, hplace]

/-- **Each byte of a row no longer than a page has a place of its own.**  The places are counted
from the address on, around the end of sprite memory, and those after the row are left alone. -/
theorem sprites_writeSprites (p : Ppu) {page : List UInt8} (hpage : page.length ≤ 256)
    (i : UInt8) :
    (p.writeSprites page).sprites.get (p.spriteAddr + i).toFin =
      page.getD i.toNat (p.sprites.get (p.spriteAddr + i).toFin) := by
  induction page generalizing p i with
  | nil => rfl
  | cons v page ih =>
    rw [List.length_cons] at hpage
    have hnext : (p.writeSprite v).spriteAddr + (i - 1) = p.spriteAddr + i := by
      change p.spriteAddr + 1 + (i - 1) = _
      grind
    have hrest := ih (p.writeSprite v) (by omega) (i - 1)
    rw [hnext, sprites_writeSprite] at hrest
    refine hrest.trans ?_
    by_cases hi : i = 0
    · -- The place of the first byte comes back only after a whole page.
      subst hi
      have hlast : page.length ≤ (0 - 1 : UInt8).toNat := by
        change page.length ≤ 255
        omega
      rw [List.getD_eq_getElem?_getD, List.getElem?_eq_none hlast]
      rfl
    · have hpred : i.toNat = (i - 1).toNat + 1 := by
        have hpos : i.toNat ≠ 0 := fun h => hi (UInt8.toNat_inj.1 h)
        have hlt := i.toNat_lt
        rw [UInt8.toNat_sub]
        change _ = (2 ^ 8 - 1 + i.toNat) % 2 ^ 8 + 1
        omega
      rw [if_neg hi, hpred, List.getD_cons_succ]

end Ppu

namespace System

/-- The system after a row of writes to one address. -/
def writeAll (s : System) (addr : UInt16) (bytes : List UInt8) : System :=
  bytes.foldl (fun s v => s.write addr v) s

/-- A row of writes through the register does what the picture unit does with a row of bytes; the
last of them stays on the register bus. -/
theorem write_spritePort (s : System) (bytes : List UInt8) :
    s.writeAll 0x2004 bytes =
      { s with
        ppu := { s.ppu.writeSprites bytes with openBus := bytes.getLastD s.ppu.openBus } } := by
  induction bytes generalizing s with
  | nil => rfl
  | cons v bytes ih =>
    have hwrite : s.write 0x2004 v =
        { s with ppu := ({ s.ppu with openBus := v } : Ppu).writeSprite v } := rfl
    change (s.write 0x2004 v).writeAll 0x2004 bytes = _
    rw [ih, hwrite, List.getLastD_cons]
    congr 1
    exact congrArg (fun p : Ppu => { p with openBus := bytes.getLastD v })
      ((s.ppu.writeSprite v).openBus_writeSprites v bytes)

end System

/-! ### Pages -/

/-- Reads of a row of addresses that show bytes answer these bytes, and change nothing. -/
theorem Bus.listBy_of_shows {β : Type} [Bus β] {bus : β} {addr : UInt16} {n : Nat}
    {byte : Nat → UInt8} (h : ∀ i < n, Bus.Shows bus (addr + UInt16.ofNat i) (byte i)) :
    Bus.listBy Bus.read bus addr n = ((List.range n).map byte, bus) := by
  induction n generalizing addr byte with
  | zero => rfl
  | succ n ih =>
    have hfirst : Bus.read bus addr = (byte 0, bus) := by
      have h0 := h 0 n.succ_pos
      rwa [show UInt16.ofNat 0 = 0 from rfl, UInt16.add_zero] at h0
    have hshows : ∀ i < n, Bus.Shows bus (addr + 1 + UInt16.ofNat i) (byte (i + 1)) := by
      intro i hi
      have hsucc := h (i + 1) (by omega)
      rwa [show addr + UInt16.ofNat (i + 1) = addr + 1 + UInt16.ofNat i by
        grind [UInt16.ofNat_add]] at hsucc
    have hrest := ih hshows
    rw [Bus.listBy, hfirst]
    dsimp only
    rw [hrest, List.range_succ_eq_map, List.map_cons, List.map_map]
    rfl

/-- The addresses of a page, from its first on. -/
theorem page_add (page : UInt8) {i : Nat} (hi : i < 256) :
    page.toUInt16 <<< 8 + UInt16.ofNat i = wordOf (UInt8.ofNat i) page := by
  have hbase : page.toUInt16 <<< 8 = wordOf 0 page := by
    rw [wordOf]
    exact (UInt16.or_zero ..).symm
  apply UInt16.toNat_inj.1
  have := page.toNat_lt
  rw [hbase, UInt16.toNat_add, toNat_wordOf, toNat_wordOf, UInt16.toNat_ofNat_of_lt' (by
    change i < 65536; omega), UInt8.toNat_ofNat_of_lt' hi]
  change (page.toNat * 256 + 0 + i) % 65536 = _
  omega

namespace System

variable (s : System) {page : UInt8}

/-- The bytes that reads of a page would answer. -/
def pageBytes (page : UInt8) : List UInt8 :=
  (List.range 256).map fun i => (s.read (wordOf (UInt8.ofNat i) page)).1

/-- Memory answers in the pages up to `$1F`, and the board from page `$41` on. -/
theorem isMemory_page (hpage : page < 0x20 ∨ 0x41 ≤ page) (low : UInt8) :
    IsMemory (wordOf low page) := by
  have hlow := low.toNat_lt
  have haddr := toNat_wordOf low page
  rcases hpage with hpage | hpage
  · refine Or.inl (UInt16.lt_iff_toNat_lt.2 ?_)
    have : page.toNat < 0x20 := UInt8.lt_iff_toNat_lt.1 hpage
    change _ < 0x2000
    omega
  · refine Or.inr (UInt16.le_iff_toNat_le.2 ?_)
    have : 0x41 ≤ page.toNat := UInt8.le_iff_toNat_le.1 hpage
    change 0x4020 ≤ _
    omega

/-- Reading such a page changes nothing. -/
theorem read_page (hpage : page < 0x20 ∨ 0x41 ≤ page) (low : UInt8) :
    (s.read (wordOf low page)).2 = s :=
  congrArg Prod.snd (s.shows_peek (isMemory_page hpage low))

theorem listBy_page (hpage : page < 0x20 ∨ 0x41 ≤ page) {n : Nat} (hn : n ≤ 256) :
    Bus.listBy read s (page.toUInt16 <<< 8) n =
      ((List.range n).map fun i => (s.read (wordOf (UInt8.ofNat i) page)).1, s) :=
  Bus.listBy_of_shows fun i hi => by
    rw [page_add page (by omega)]
    exact Prod.ext rfl (s.read_page hpage _)

/-- What a copy of such a page does: it puts the bytes into sprite memory, and lets the processor
wait. -/
theorem copySprites_eq (hpage : page < 0x20 ∨ 0x41 ≤ page) :
    s.copySprites page =
      { s with
        ppu := s.ppu.writeSprites (s.pageBytes page)
        stall := s.stall + spriteCopyCycles + s.cycles % 2 } := by
  have hlist : Bus.listBy read s (page.toUInt16 <<< 8) 256 = (s.pageBytes page, s) :=
    s.listBy_page hpage (Nat.le_refl 256)
  unfold copySprites
  rw [hlist]

theorem length_pageBytes (page : UInt8) : (s.pageBytes page).length = 256 := by
  rw [pageBytes, List.length_map, List.length_range]

theorem getD_pageBytes (page i v : UInt8) :
    (s.pageBytes page).getD i.toNat v = (s.read (wordOf i page)).1 := by
  rw [pageBytes, List.getD_eq_getElem?_getD, List.getElem?_map, List.getElem?_range i.toNat_lt,
    Option.map_some, Option.getD_some, UInt8.ofNat_toNat]

/-- **A copy is a row of writes through the register, and a wait.**  Where memory or the board
answers, reading the page changes nothing.  A copy of the page leaves sprite memory and the address
within it as 256 writes to `$2004` of the bytes read do: byte `i` of the page lies `i` places after
the address, and the address is the same as before.  The processor has to wait 513 cycles more, and
another one on an odd cycle.  Nothing else has changed. -/
theorem copy_through_port (hpage : page < 0x20 ∨ 0x41 ≤ page) :
    let copied := s.write 0x4014 page
    let written := s.writeAll 0x2004 (s.pageBytes page)
    (∀ i, (s.read (wordOf i page)).2 = s) ∧
    copied.ppu.sprites = written.ppu.sprites ∧ copied.ppu.spriteAddr = written.ppu.spriteAddr ∧
    (∀ i, copied.ppu.sprites.get (s.ppu.spriteAddr + i).toFin = (s.read (wordOf i page)).1) ∧
    copied.ppu.spriteAddr = s.ppu.spriteAddr ∧
    copied.stall = s.stall + (513 + s.cycles % 2) ∧
    copied = { s with
      ppu := { s.ppu with sprites := copied.ppu.sprites }
      stall := copied.stall } := by
  intro copied written
  have hcopied : copied = _ := (s.write_copy page).trans (s.copySprites_eq hpage)
  have hwritten : written = _ := s.write_spritePort (s.pageBytes page)
  have haround : s.ppu.spriteAddr + UInt8.ofNat 256 = s.ppu.spriteAddr := UInt8.add_zero _
  have hppu := s.ppu.writeSprites_eq (s.pageBytes page)
  rw [length_pageBytes, haround] at hppu
  have haddr : copied.ppu.spriteAddr = s.ppu.spriteAddr := by
    rw [hcopied, hppu]
  refine ⟨s.read_page hpage, ?_, ?_, fun i => ?_, haddr, ?_, ?_⟩
  · rw [hcopied, hwritten]
  · rw [hcopied, hwritten]
  · rw [hcopied, ← s.getD_pageBytes page i]
    exact s.ppu.sprites_writeSprites (Nat.le_of_eq (s.length_pageBytes page)) i
  · rw [hcopied]
    exact Nat.add_assoc _ _ _
  · rw [hcopied]
    exact congrArg (fun ppu : Ppu =>
      { s with ppu, stall := s.stall + spriteCopyCycles + s.cycles % 2 }) hppu

/-- A page of memory that repeats the one at `$0200`, copied on an odd cycle and around the end of
sprite memory. -/
theorem copy_through_port_around :
    let s : System := {
      ram := (Vector.replicate 0x800 0).set 0x210 7
      ppu := { spriteAddr := 0xF0 }
      apu := .powerOn 44100 1789773
      board := {
        prgRom := #[0xEA]
        chr := #[0xFF]
        chrIsRam := false
        prgRam := .replicate _ 0
        wired := .horizontal
        chip := .nrom }
      cycles := 1 }
    (s.write 0x4014 0x1A).ppu.sprites.get 0 = 7 ∧
      (s.write 0x4014 0x1A).ppu.spriteAddr = 0xF0 ∧ (s.write 0x4014 0x1A).stall = 514 := by
  intro s
  have hpage : (0x1A : UInt8) < 0x20 ∨ 0x41 ≤ (0x1A : UInt8) := by decide
  obtain ⟨-, -, -, hplace, haddr, hstall, -⟩ := s.copy_through_port hpage
  have hround : s.ppu.spriteAddr = 0xF0 := rfl
  have hbyte : (s.read (wordOf 0x10 0x1A)).1 = 7 :=
    Vector.getElem_set_self (show 0x210 < 0x800 by decide)
  have hfirst := hplace 0x10
  rw [hround, hbyte] at hfirst
  exact ⟨hfirst, haddr, hstall⟩

end System

end Nes
