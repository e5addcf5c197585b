import Nes.Proofs.Board.SerialBanks

/-!
# The memories of a board

A board has a program and patterns, which are read only unless the patterns are memory, and work
memory.  Whether work memory answers and accepts writes is told by the history of its chip alone
(`answers`, `accepts`, `guards_run`).  A byte of it holds the last value that was written to its
address while writes were accepted (`lastPut`), and what it held at power-on if there is none
(`ram_run`); nothing else alters it.

A write to pattern memory is seen through all addresses that the banks of the moment map to the same
cell, and through no others (`chrRead_chrWrite`).  `memory_history` puts this together for all
boards.
-/

namespace Nes.Board

/-! ### What a history permits -/

/-- What a history has written to the protection register of an MMC3 last; at first work memory is
there and not protected. -/
def protection (ops : List Op) : UInt8 :=
  ops.foldl (fun data o =>
    match o with
    | .prgWrite addr v =>
      if 0xA000 ≤ addr.toNat ∧ addr.toNat < 0xC000 ∧ addr.toNat % 2 = 1 then v else data
    | .chrWrite .. | .clockLine | .clockCycle | .reset => data) 0x80

/-- Work memory answers to reads after a history, on the board with a number: not at all where there
is none, on an MMC1 while bit 4 of the program register is clear, on an MMC3 while it is enabled. -/
def answers (id : Nat) (ops : List Op) : Bool :=
  match id with
  | 1 => Serial.lastLoaded (.last 3) ops &&& 0x10 == 0
  | 2 | 3 => false
  | 4 => protection ops &&& 0x80 != 0
  | _ => true

/-- Work memory accepts writes after a history: where it answers, and on an MMC3 while it is not
protected. -/
def accepts (id : Nat) (ops : List Op) : Bool :=
  answers id ops && (id != 4 || protection ops &&& 0x40 == 0)

/-- `lastPut`, with the newest operation in front. -/
def lastPutFrom (id : Nat) (addr : UInt16) : List Op → Option UInt8
  | [] => none
  | o :: older =>
    match o with
    | .prgWrite addr' v =>
      if addr' = addr ∧ accepts id older.reverse = true then some v else lastPutFrom id addr older
    | .chrWrite .. | .clockLine | .clockCycle | .reset => lastPutFrom id addr older

/-- The last value that a history has written to an address of work memory while writes were
accepted. -/
def lastPut (id : Nat) (addr : UInt16) (ops : List Op) : Option UInt8 :=
  lastPutFrom id addr ops.reverse

/-- The byte behind an address of work memory at power-on: of the trainer from `$7000` to `$71FF` if
there is one, and zero elsewhere. -/
def initialByte (trainer : Option (Array UInt8)) (addr : UInt16) : UInt8 :=
  if 0x7000 ≤ addr.toNat ∧ addr.toNat < 0x7200 then
    (trainer.bind fun t => t[addr.toNat - 0x7000]?).getD 0
  else 0

section

variable (id : Nat) (addr : UInt16) (ops : List Op)

theorem protection_concat (o : Op) :
    protection (ops ++ [o]) =
      match o with
      | .prgWrite addr v =>
        if 0xA000 ≤ addr.toNat ∧ addr.toNat < 0xC000 ∧ addr.toNat % 2 = 1 then v
        else protection ops
      | .chrWrite .. | .clockLine | .clockCycle | .reset => protection ops := by
  rw [protection, List.foldl_append]
  cases o <;> rfl

theorem lastPut_concat (o : Op) :
    lastPut id addr (ops ++ [o]) =
      match o with
      | .prgWrite addr' v =>
        if addr' = addr ∧ accepts id ops = true then some v else lastPut id addr ops
      | .chrWrite .. | .clockLine | .clockCycle | .reset => lastPut id addr ops := by
  rw [lastPut, List.reverse_concat]
  cases o with
  | prgWrite addr' v =>
    rw [lastPutFrom, List.reverse_reverse]
    rfl
  | _ => rfl

end

/-! ### What the chips permit -/

/-- The protection of work memory is what has been written to its register last. -/
structure Mmc3.Guarded (s : Mmc3) (ops : List Op) : Prop where
  /-- Bit 7 enables it. -/
  enabled : s.ramEnabled = (protection ops &&& 0x80 != 0)
  /-- Bit 6 protects it. -/
  protects : s.ramProtected = (protection ops &&& 0x40 != 0)

namespace Mmc3

variable {s : Mmc3} {ops : List Op}

theorem ram_write (s : Mmc3) {addr : UInt16} (haddr : 0x8000 ≤ addr.toNat) (v : UInt8) :
    ((s.write addr v).ramEnabled, (s.write addr v).ramProtected) =
      if 0xA000 ≤ addr.toNat ∧ addr.toNat < 0xC000 ∧ addr.toNat % 2 = 1 then
        (v &&& 0x80 != 0, v &&& 0x40 != 0)
      else (s.ramEnabled, s.ramProtected) := by
  have hlt := addr.toNat_lt
  have hpage : (addr.toNat - 0x8000) / 0x2000 < 4 := by omega
  have hregister : 0xA000 ≤ addr.toNat ∧ addr.toNat < 0xC000 ∧ addr.toNat % 2 = 1 ↔
      (addr.toNat - 0x8000) / 0x2000 = 1 ∧ ¬addr.toNat % 2 = 0 := by omega
  rw [write, page_eq haddr, even_iff, if_congr hregister rfl rfl]
  generalize (addr.toNat - 0x8000) / 0x2000 = page at hpage
  by_cases heven : addr.toNat % 2 = 0 <;> interval_cases page
  all_goals simp [heven]
  split <;> exact ⟨rfl, rfl⟩

theorem Guarded.of_eq {t : Mmc3} {o : Op} (h : s.Guarded ops)
    (hram : (t.ramEnabled, t.ramProtected) = (s.ramEnabled, s.ramProtected))
    (ho : protection (ops ++ [o]) = protection ops) : t.Guarded (ops ++ [o]) := by
  obtain ⟨henabled, hprotected⟩ := Prod.mk.inj hram
  constructor
  · rw [ho, henabled, h.enabled]
  · rw [ho, hprotected, h.protects]

theorem guarded_run {b : Board} {s₀ : Mmc3} (hb : b.chip = .mmc3 s₀) (h : s₀.Guarded [])
    (ops : List Op) : ∃ s, (b.run ops).chip = .mmc3 s ∧ s.Guarded ops := by
  induction ops using List.reverseRecOn with
  | nil => exact ⟨s₀, hb, h⟩
  | append_singleton ops o ih =>
    obtain ⟨s, hs, hguarded⟩ := ih
    rw [chip_run_concat, hs]
    cases o with
    | prgWrite addr v =>
      have hprotection := protection_concat ops (.prgWrite addr v)
      by_cases haddr : addr ≥ 0x8000
      · refine ⟨s.write addr v, if_pos haddr, ?_⟩
        have hram := s.ram_write (high_iff.1 haddr) v
        by_cases hregister : 0xA000 ≤ addr.toNat ∧ addr.toNat < 0xC000 ∧ addr.toNat % 2 = 1
        · rw [if_pos hregister] at hram
          dsimp only at hprotection
          rw [if_pos hregister] at hprotection
          obtain ⟨henabled, hprotected⟩ := Prod.mk.inj hram
          exact ⟨hprotection.symm ▸ henabled, hprotection.symm ▸ hprotected⟩
        · exact hguarded.of_eq (hram.trans (if_neg hregister))
            (hprotection.trans (if_neg hregister))
      · refine ⟨s, if_neg haddr, hguarded.of_eq rfl (hprotection.trans (if_neg ?_))⟩
        have hlow := Nat.not_le.1 (high_iff.not.1 haddr)
        omega
    | _ => exact ⟨_, rfl, hguarded.of_eq rfl (protection_concat ..)⟩

end Mmc3

/-- **The history of a board tells when its work memory answers and accepts writes.** -/
theorem guards_run {cart : Cartridge} {b : Board} (hb : ofCartridge cart = some b) (ops : List Op) :
    (b.run ops).chip.ramReadable = answers cart.mapperId ops ∧
      (b.run ops).chip.ramWritable = accepts cart.mapperId ops := by
  obtain ⟨c, hc, -⟩ := Option.map_eq_some_iff.1 hb
  obtain ⟨b', hb', hchip, -⟩ := exists_board hc
  obtain rfl := Option.some.inj (hb'.symm.trans hb)
  have hvrc {s : Vrc} (h : b'.chip = .vrc s) :
      (b'.run ops).chip.ramReadable = true ∧ (b'.run ops).chip.ramWritable = true := by
    obtain ⟨s', hs', -⟩ := exists_vrc_run ops h
    rw [hs']
    exact ⟨rfl, rfl⟩
  unfold chipFor at hc
  dsimp only at hc
  split at hc
  all_goals cases hc
  all_goals rename_i hid
  all_goals rw [hid]
  · rw [chip_run_nrom ops hchip]
    exact ⟨rfl, rfl⟩
  · have hprg := Serial.getElem_run (i := .last 3) (by decide) ops
    rw [Serial.chip_run (s := {}) hchip (Nat.zero_lt_succ 4) ops, answers, accepts, answers, ← hprg]
    exact ⟨rfl, (Bool.and_true _).symm⟩
  · obtain ⟨bank, hbank⟩ := exists_uxRom_run ops hchip
    rw [hbank]
    exact ⟨rfl, rfl⟩
  · obtain ⟨bank, hbank⟩ := exists_cnRom_run ops hchip
    rw [hbank]
    exact ⟨rfl, rfl⟩
  · obtain ⟨s, hs, henabled, hprotects⟩ := Mmc3.guarded_run hchip ⟨rfl, rfl⟩ ops
    rw [hs, answers, accepts, answers]
    refine ⟨henabled, ?_⟩
    rw [Chip.ramWritable, henabled, hprotects]
    simp only [bne, Bool.not_not, beq_self_eq_true, Bool.not_true, Bool.false_or]
  · exact hvrc hchip
  · exact hvrc hchip
  · exact hvrc hchip
  · exact hvrc hchip

/-! ### Work memory -/

section

variable {cart : Cartridge} {b : Board} {addr : UInt16}

theorem ramIndex_inj {addr' : UInt16} (hlow : 0x6000 ≤ addr.toNat) (hhigh : addr.toNat < 0x8000)
    (hlow' : 0x6000 ≤ addr'.toNat) (hhigh' : addr'.toNat < 0x8000) :
    (ramIndex addr').val = (ramIndex addr).val ↔ addr' = addr := by
  rw [← UInt16.toNat_inj]
  simp only [ramIndex]
  omega

/-- Only a write to its address changes a byte of work memory, and only while writes are
accepted. -/
theorem get_onRam (b : Board) (hlow : 0x6000 ≤ addr.toNat) (hhigh : addr.toNat < 0x8000) (o : Op) :
    (o.onRam b).get (ramIndex addr) =
      match o with
      | .prgWrite addr' v =>
        if addr' = addr ∧ b.chip.ramWritable = true then v else b.prgRam.get (ramIndex addr)
      | .chrWrite .. | .clockLine | .clockCycle | .reset => b.prgRam.get (ramIndex addr) := by
  cases o with
  | prgWrite addr' v =>
    dsimp only [Op.onRam]
    by_cases haddr : addr' = addr
    · subst haddr
      simp only [hlow, hhigh, true_and]
      split
      · exact Vector.getElem_setIfInBounds_self _
      · rfl
    · rw [if_neg fun h : addr' = addr ∧ _ => haddr h.1]
      split
      · next hram =>
        have hne := (ramIndex_inj hlow hhigh hram.1 hram.2.1).not.2 haddr
        exact Vector.getElem_setIfInBounds_ne _ hne
      · rfl
  | _ => rfl

/-- **A byte of work memory is the last one that was written to its address while writes were
accepted.** -/
theorem ram_run (hb : ofCartridge cart = some b) (hlow : 0x6000 ≤ addr.toNat)
    (hhigh : addr.toNat < 0x8000) (ops : List Op) :
    (b.run ops).prgRam.get (ramIndex addr) =
      (lastPut cart.mapperId addr ops).getD (b.prgRam.get (ramIndex addr)) := by
  induction ops using List.reverseRecOn with
  | nil => rfl
  | append_singleton ops o ih =>
    rw [run_concat, lastPut_concat, get_onRam _ hlow hhigh]
    cases o with
    | prgWrite addr' v =>
      dsimp only
      rw [(guards_run hb ops).2, ih]
      split <;> rfl
    | _ => exact ih

theorem get_initialRam {trainer : Option (Array UInt8)}
    (h : ∀ t, trainer = some t → t.size = 512) (hlow : 0x6000 ≤ addr.toNat)
    (hhigh : addr.toNat < 0x8000) :
    (initialRam trainer).get (ramIndex addr) = initialByte trainer addr := by
  have hindex : (ramIndex addr).val = addr.toNat - 0x6000 := by
    simp only [ramIndex]
    omega
  cases trainer with
  | none => exact (Vector.getElem_replicate ..).trans (ite_self _).symm
  | some t =>
    have hsize := h t rfl
    have hcell : (initialRam (some t)).get (ramIndex addr) =
        if (ramIndex addr).val < 0x1000 then 0 else t.getD ((ramIndex addr).val - 0x1000) 0 :=
      Vector.getElem_ofFn ..
    have hoffset : addr.toNat - 0x6000 - 0x1000 = addr.toNat - 0x7000 := by omega
    rw [hcell, hindex, initialByte, Option.bind_some, hoffset, Array.getD_eq_getD_getElem?]
    -- Beyond its 512 bytes the trainer has nothing to show.
    obtain hbefore | hinside | hbeyond : addr.toNat < 0x7000 ∨
        (0x7000 ≤ addr.toNat ∧ addr.toNat < 0x7200) ∨ 0x7200 ≤ addr.toNat := by omega
    · rw [if_pos (by omega), if_neg (by omega)]
    · rw [if_neg (by omega), if_pos hinside]
    · rw [if_neg (by omega), if_neg (by omega), Array.getElem?_eq_none (by omega)]
      rfl

theorem prgRead_run (hb : ofCartridge cart = some b) (hlow : 0x6000 ≤ addr.toNat)
    (hhigh : addr.toNat < 0x8000) (ops : List Op) :
    (b.run ops).prgRead addr =
      if answers cart.mapperId ops = true then (b.run ops).prgRam.get (ramIndex addr) else 0 := by
  have hrom : ¬addr ≥ 0x8000 := high_iff.not.2 (Nat.not_le.2 hhigh)
  have hram : decide (addr ≥ 0x6000) = true := decide_eq_true (UInt16.le_iff_toNat_le.2 hlow)
  rw [prgRead, if_neg hrom, (guards_run hb ops).1, hram, Bool.true_and]
  rfl

end

/-! ### Patterns -/

theorem chrIsRam_run (b : Board) (ops : List Op) : (b.run ops).chrIsRam = b.chrIsRam := by
  induction ops using List.reverseRecOn with
  | nil => rfl
  | append_singleton ops o ih => rw [run_concat, ih]

theorem chrWritable_run (b : Board) (ops : List Op) : (b.run ops).chrWritable = b.chrWritable := by
  have hkind := sameKind_run b ops
  unfold chrWritable
  rw [chrIsRam_run]
  generalize b.chip = c, (b.run ops).chip = c' at hkind
  cases hkind <;> rfl

/-- The patterns stay as they are if the board cannot write them. -/
theorem chr_run {b : Board} (h : b.chrWritable = false) (ops : List Op) :
    (b.run ops).chr = b.chr := by
  induction ops using List.reverseRecOn with
  | nil => rfl
  | append_singleton ops o ih =>
    rw [run_concat, ← ih]
    cases o with
    | chrWrite addr v => exact if_neg (by rw [chrWritable_run, h]; decide)
    | _ => rfl

section

variable {b : Board} (hsize : 0 < b.chr.size) (hwritable : b.chrWritable = true)
include hsize hwritable

theorem getElem?_chrWrite (addr : UInt16) (v : UInt8) (i : Nat) :
    (b.chrWrite addr v).chr[i]? = if i = b.chrIndex addr then some v else b.chr[i]? := by
  rw [chrWrite, if_pos hwritable]
  simp only [Array.getElem?_setIfInBounds, b.chrIndex_lt addr hsize, ↓reduceIte, eq_comm]

/-- A byte that was written to the patterns is seen through the addresses that show the same
cell, and through no others. -/
theorem chrRead_chrWrite (addr : UInt16) (v : UInt8) (addr' : UInt16) :
    (b.chrWrite addr v).chrRead addr' =
      if b.chrIndex addr' = b.chrIndex addr then v else b.chrRead addr' := by
  have hindex : (b.chrWrite addr v).chrIndex addr' = b.chrIndex addr' := by
    simp only [chrWrite, if_pos hwritable, chrIndex, Array.size_setIfInBounds]
  rw [chrRead, chrRead, hindex, Array.getD_eq_getD_getElem?, Array.getD_eq_getD_getElem?,
    getElem?_chrWrite hsize hwritable]
  split <;> rfl

end

/-! ### All boards -/

theorem chrWritable_ofCartridge {cart : Cartridge} {b : Board} (hb : ofCartridge cart = some b) :
    b.chrWritable = (cart.chrIsRam && cart.mapperId != 3) := by
  obtain ⟨c, hc, rfl⟩ := Option.map_eq_some_iff.1 hb
  unfold chipFor at hc
  dsimp only at hc
  split at hc
  all_goals cases hc
  all_goals rename_i hid
  all_goals simp [chrWritable, hid]

theorem memories_ofCartridge {cart : Cartridge} {b : Board} (hb : ofCartridge cart = some b) :
    b.prgRom = cart.prgRom ∧ b.chr = cart.chr ∧ b.prgRam = initialRam cart.trainer := by
  obtain ⟨c, -, rfl⟩ := Option.map_eq_some_iff.1 hb
  exact ⟨rfl, rfl, rfl⟩

/-- **The memories of a board.**  After every history, the program of an accepted image is what it
was, and so are its patterns unless they are memory that the board can write.

From `$6000` to `$7FFF` the board shows, while work memory answers, the last byte that was written
to the address while writes were accepted, and at first what the trainer has there; nothing else,
be it a write to a register, a clock or a reset, alters that byte.

A byte that is written to pattern memory is seen through the addresses that the banks of the moment
map to its cell, and through no others, and leaves all other cells alone. -/
theorem memory_history {data : Array UInt8} {cart : Cartridge}
    (hcart : Cartridge.ofBytes data = .ok cart)
    (hid : cart.mapperId ∈ [0, 1, 2, 3, 4, 21, 22, 23, 25]) :
    ∃ b, ofCartridge cart = some b ∧ ∀ ops : List Op,
      (b.run ops).prgRom = cart.prgRom ∧
      (cart.chrIsRam = false ∨ cart.mapperId = 3 → (b.run ops).chr = cart.chr) ∧
      (∀ addr : UInt16, 0x6000 ≤ addr.toNat → addr.toNat < 0x8000 →
        (b.run ops).prgRead addr =
          (if answers cart.mapperId ops = true then
            (lastPut cart.mapperId addr ops).getD (initialByte cart.trainer addr)
          else 0) ∧
        ∀ o : Op, (∀ v, o = .prgWrite addr v → accepts cart.mapperId ops = false) →
          (b.run (ops ++ [o])).prgRam.get (ramIndex addr) =
            (b.run ops).prgRam.get (ramIndex addr)) ∧
      (cart.chrIsRam = true → cart.mapperId ≠ 3 → ∀ (addr : UInt16) (v : UInt8),
        (∀ addr', ((b.run ops).chrWrite addr v).chrRead addr' =
          if (b.run ops).chrIndex addr' = (b.run ops).chrIndex addr then v
          else (b.run ops).chrRead addr') ∧
        ∀ i, i ≠ (b.run ops).chrIndex addr →
          ((b.run ops).chrWrite addr v).chr[i]? = (b.run ops).chr[i]?) := by
  obtain ⟨b, hb⟩ : ∃ b, ofCartridge cart = some b := by
    simp only [List.mem_cons, List.not_mem_nil, or_false] at hid
    obtain h | h | h | h | h | h | h | h | h := hid <;> simp [ofCartridge, chipFor, h]
  obtain ⟨hprg, hchr, htrainer⟩ := Cartridge.Image.sizes_of_ofBytes hcart
  obtain ⟨hrom, hpatterns, hwork⟩ := memories_ofCartridge hb
  have hwritable := chrWritable_ofCartridge hb
  refine ⟨b, hb, fun ops => ⟨(prgRom_run b ops).trans hrom, fun hfixed => ?_,
    fun addr hlow hhigh => ⟨?_, fun o ho => ?_⟩, fun hram hid addr v => ?_⟩⟩
  · refine (chr_run ?_ ops).trans hpatterns
    rw [hwritable]
    obtain h | h := hfixed <;> simp [h]
  · rw [prgRead_run hb hlow hhigh, ram_run hb hlow hhigh, hwork,
      get_initialRam htrainer hlow hhigh]
  · rw [run_concat, get_onRam _ hlow hhigh]
    cases o with
    | prgWrite addr' v =>
      refine if_neg ?_
      rintro ⟨rfl, haccepted⟩
      rw [(guards_run hb ops).2, ho v rfl] at haccepted
      exact Bool.noConfusion haccepted
    | _ => rfl
  · have hwritten : (b.run ops).chrWritable = true := by
      rw [chrWritable_run, hwritable, hram]
      simpa using hid
    have hsize := ((sound_ofCartridge hb hprg hchr).run ops).chr_pos
    refine ⟨chrRead_chrWrite hsize hwritten addr v, fun i hi => ?_⟩
    rw [getElem?_chrWrite hsize hwritten, if_neg hi]

/-- An image for an MMC3 with one byte of program and 128 bytes of pattern memory. -/
def protectedImage : Array UInt8 :=
  #[0x4E, 0x45, 0x53, 0x1A, 0, 0, 0x40, 0x08, 0, 0x0F, 0, 1, 0, 0, 0, 0, 0xEA]

/-- A write to work memory while it is protected is lost, and a reset takes nothing back. -/
theorem memory_history_protected :
    let ops : List Op :=
      [.prgWrite 0x6000 1, .prgWrite 0xA001 0xC0, .prgWrite 0x6000 2, .chrWrite 0x0000 3, .reset]
    ∃ cart b, Cartridge.ofBytes protectedImage = .ok cart ∧ cart.mapperId = 4 ∧
      ofCartridge cart = some b ∧
      (b.run ops).prgRead 0x6000 = 1 ∧ (b.run ops).prgRead 0x7000 = 0 ∧
      ((b.run ops).chrWrite 0x0200 0x5A).chrRead 0x1F80 = 0x5A := by
  intro ops
  have hread : (Cartridge.ofBytes protectedImage).toOption.map
      (fun cart => (cart.mapperId, cart.chrIsRam, cart.trainer,
        (ofCartridge cart).map fun b => ((b.run ops).chrIndex 0x1F80, (b.run ops).chrIndex 0x0200)))
      = some (4, true, none, some (0, 0)) := by
    decide +kernel
  obtain ⟨cart, hcart, hfields⟩ := Option.map_eq_some_iff.1 hread
  have hok : Cartridge.ofBytes protectedImage = .ok cart := by
    cases h : Cartridge.ofBytes protectedImage with
    | error e => simp [h, Except.toOption] at hcart
    | ok cart' => simpa [h, Except.toOption] using hcart
  obtain ⟨hid, hram, htrainer, hindex⟩ : cart.mapperId = 4 ∧ cart.chrIsRam = true ∧
      cart.trainer = none ∧ _ := by simpa only [Prod.mk.injEq] using hfields
  obtain ⟨b, hb, hrun⟩ := memory_history hok (by rw [hid]; decide)
  obtain ⟨-, -, hwork, hpatterns⟩ := hrun ops
  have hcells : (b.run ops).chrIndex 0x1F80 = (b.run ops).chrIndex 0x0200 := by
    simp only [hb, Option.map_some, Option.some.injEq, Prod.mk.injEq] at hindex
    exact hindex.1.trans hindex.2.symm
  have hfirst := (hwork 0x6000 (by decide) (by decide)).1
  have hother := (hwork 0x7000 (by decide) (by decide)).1
  rw [hid, htrainer] at hfirst hother
  refine ⟨cart, b, hok, hid, hb, hfirst.trans (by decide), hother.trans (by decide), ?_⟩
  exact ((hpatterns hram (by rw [hid]; decide) 0x0200 0x5A).1 0x1F80).trans (if_pos hcells)

end Nes.Board
