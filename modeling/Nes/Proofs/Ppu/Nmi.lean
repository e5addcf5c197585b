import Nes.Ppu.Access
import Nes.Proofs.Ppu.Beam
import Nes.Proofs.Ppu.Tick

/-!
# The interrupt by the picture unit

The picture unit wants to interrupt the processor while the blank's flag is set and the interrupt is
enabled (`Ppu.raises`).  Two things can bring this about, the start of the blank and a write to the
control register, and each of them also sets the latch that the processor asks for.  The latch
outlives the condition: a read of the status, a write to the control register or the end of the
blank withdraw the condition only.

So the latch is set if and only if the condition has begun to hold since it was last asked for or
the unit was reset (`Ppu.Timely.nmi_run`).  The invariant behind this is that the flag is only set
while the beam is in the blank (`Ppu.Timely`): when the blank starts, the flag is clear.
-/

namespace Nes.Ppu

namespace Beam

/-- The beam is in the blank, or where its flag is about to be cleared. -/
def InBlank (b : Beam) : Prop :=
  b.line = 241 ∧ 2 ≤ b.dot ∨ 242 ≤ b.line ∧ b.line ≤ 260 ∨ b.line = 261 ∧ b.dot ≤ 1

theorem InBlank.entersVblank {b : Beam} (h : b.InBlank) : b.entersVblank = false := by
  rw [← Bool.not_eq_true, entersVblank_iff]
  rcases h with h | h | h <;> omega

/-- The next blank is far. -/
theorem InBlank.toBlank {b : Beam} (h : b.InBlank) (hb : b.InFrame) : 80000 ≤ b.toBlank := by
  have hdot : b.dot < 341 := hb.dot_lt
  have hblank := b.toBlank_cases
  simp only [position, dotsPerLine] at hblank
  rcases h with h | h | h <;> omega

theorem InBlank.advance {b : Beam} (h : b.InBlank) (r : Bool)
    (hends : ¬(b.line = 261 ∧ b.dot = 1)) : (b.advance r).InBlank := by
  unfold InBlank at h ⊢
  rcases b.advance_line_dot r with ⟨_, hl, hd⟩ | ⟨_, hd, ⟨_, hl⟩ | ⟨_, hl⟩⟩ <;>
    rw [hl, hd] <;> omega

theorem InBlank.start {b : Beam} (r : Bool) (h : b.entersVblank = true) :
    (b.advance r).InBlank := by
  obtain ⟨hline, hdot⟩ := entersVblank_iff.1 h
  rw [advance_of_lt r (by rw [hdot]; decide)]
  exact Or.inl ⟨hline, Nat.le_of_eq (congrArg Nat.succ hdot).symm⟩

end Beam

/-- The picture unit wants to interrupt the processor. -/
def raises (p : Ppu) : Bool := p.control.nmiEnabled && p.status.vblank

/-- What can be done with a picture unit; the cartridge may be another one each time. -/
inductive Op (γ : Type)
  /-- A dot is drawn. -/
  | tick (cart : γ)
  /-- The processor reads a register. -/
  | read (cart : γ) (number : UInt16)
  /-- The processor writes a register. -/
  | write (cart : γ) (number : UInt16) (v : UInt8)
  /-- A page of bytes is copied into sprite memory. -/
  | sprites (page : List UInt8)
  /-- The picture is asked for. -/
  | takeFrame
  /-- The latch is asked for. -/
  | poll
  /-- The unit is reset. -/
  | reset

variable {γ : Type} [PictureBus γ]

namespace Op

/-- The picture unit after an operation. -/
def act (p : Ppu) : Op γ → Ppu
  | tick cart => p.tick cart
  | read cart number => (p.readRegister cart number).2
  | write cart number v => (p.writeRegister cart number v).1
  | sprites page => p.writeSprites page
  | takeFrame => p.takeFrame.2
  | poll => p.pollNmi.2
  | reset => p.reset

/-- The operation clears the latch. -/
def clears : Op γ → Bool
  | poll | reset => true
  | _ => false

/-- The condition begins to hold. -/
def rises (p : Ppu) (op : Op γ) : Bool := !p.raises && (op.act p).raises

end Op

/-- The picture unit after some operations. -/
def run (p : Ppu) (ops : List (Op γ)) : Ppu := ops.foldl Op.act p

theorem run_cons (p : Ppu) (op : Op γ) (ops : List (Op γ)) :
    p.run (op :: ops) = (op.act p).run ops := rfl

theorem run_append (p : Ppu) (ops ops' : List (Op γ)) :
    p.run (ops ++ ops') = (p.run ops).run ops' := List.foldl_append

/-! ### What an operation changes -/

/-- The parts of the picture unit that decide on the interrupt. -/
structure Alarm where
  /-- The control register. -/
  control : Control
  /-- The flags. -/
  status : Status
  /-- The latch. -/
  nmi : Bool
  /-- The beam. -/
  beam : Beam

/-- The alarm of a picture unit. -/
def alarm (p : Ppu) : Alarm := ⟨p.control, p.status, p.nmi, p.beam⟩

theorem raises_of_alarm {p q : Ppu} (h : p.alarm = q.alarm) : p.raises = q.raises :=
  congrArg (fun a : Alarm => a.control.nmiEnabled && a.status.vblank) h

theorem alarm_writeMemory (p : Ppu) (cart : γ) (addr : UInt16) (v : UInt8) :
    (p.writeMemory cart addr v).1.alarm = p.alarm := by
  simp only [writeMemory]
  split_ifs <;> rfl

theorem alarm_writeSprites (p : Ppu) (page : List UInt8) :
    (p.writeSprites page).alarm = p.alarm := by
  unfold writeSprites
  induction page generalizing p with
  | nil => rfl
  | cons v page ih =>
    rw [List.foldl_cons, ih]
    rfl

/-- Nothing that decides on the interrupt has changed, except that the flag of the blank may have
been cleared. -/
structure Fades (p p' : Ppu) : Prop where
  /-- The control register is the same. -/
  control : p'.control = p.control
  /-- The latch is the same. -/
  nmi : p'.nmi = p.nmi
  /-- The beam is where it was. -/
  beam : p'.beam = p.beam
  /-- The flag has not been set. -/
  vblank : p'.status.vblank = true → p.status.vblank = true

theorem Fades.of_alarm {p p' : Ppu} (h : p'.alarm = p.alarm) : Fades p p' where
  control := congrArg Alarm.control h
  nmi := congrArg Alarm.nmi h
  beam := congrArg Alarm.beam h
  vblank := (congrArg (·.status.vblank) h).symm.trans

theorem fades_readRegister (p : Ppu) (cart : γ) (number : UInt16) :
    Fades p (p.readRegister cart number).2 := by
  unfold readRegister
  split
  next v q heq =>
    split at heq <;> cases heq
    · exact ⟨rfl, rfl, rfl, fun h => Bool.noConfusion h⟩
    all_goals exact ⟨rfl, rfl, rfl, id⟩

theorem fades_writeSprites (p : Ppu) (page : List UInt8) : Fades p (p.writeSprites page) :=
  .of_alarm (alarm_writeSprites p page)

/-- Of all writes, only that to the control register matters. -/
theorem alarm_writeRegister (p : Ppu) (cart : γ) (number : UInt16) (v : UInt8) :
    (p.writeRegister cart number v).1.alarm = p.alarm ∨
      (p.writeRegister cart number v).1.alarm = (p.writeControl v).alarm := by
  unfold writeRegister
  dsimp only
  split
  · exact Or.inr rfl
  · exact Or.inl rfl
  · exact Or.inl rfl
  · exact Or.inl rfl
  · exact Or.inl rfl
  · refine Or.inl ?_
    unfold writeScroll
    split_ifs <;> rfl
  · refine Or.inl ?_
    unfold writeAddr
    split_ifs <;> rfl
  · exact Or.inl (alarm_writeMemory { p with openBus := v } cart (UInt16.ofNat p.v.toNat) v)

/-! ### The latch -/

/-- The flag of the blank is set in the blank only. -/
structure Timely (p : Ppu) : Prop where
  /-- The beam is inside the frame. -/
  inFrame : p.beam.InFrame
  /-- With the flag, it is in the blank. -/
  inBlank : p.status.vblank = true → p.beam.InBlank

theorem Timely.powerOn : Timely powerOn := ⟨⟨by decide, by decide⟩, fun h => absurd h (by decide)⟩

theorem Timely.vblank_of_entersVblank {p : Ppu} (h : Timely p) (he : p.beam.entersVblank = true) :
    p.status.vblank = false := by
  rw [← Bool.not_eq_true]
  intro hv
  rw [(h.inBlank hv).entersVblank] at he
  exact Bool.noConfusion he

theorem endsFlags_iff {p : Ppu} : p.endsFlags = true ↔ p.beam.line = 261 ∧ p.beam.dot = 1 := by
  simp only [endsFlags, Beam.preRender, preRenderLine, Bool.and_eq_true, beq_iff_eq]

theorem Timely.tick {p : Ppu} (h : Timely p) (cart : γ) : Timely (p.tick cart) := by
  refine ⟨?_, ?_⟩
  · rw [beam_tick]
    exact h.inFrame.advance _
  · rw [beam_tick, vblank_tick]
    intro hv
    by_cases he : p.beam.entersVblank = true
    · exact Beam.InBlank.start _ he
    · rw [Bool.not_eq_true] at he
      rw [he, Bool.false_or, Bool.and_eq_true, Bool.not_eq_true'] at hv
      refine (h.inBlank hv.2).advance _ fun hends => ?_
      rw [← endsFlags_iff, hv.1] at hends
      exact Bool.noConfusion hends

theorem Timely.fades {p p' : Ppu} (h : Timely p) (hp : Fades p p') : Timely p' := by
  refine ⟨?_, ?_⟩
  · rw [hp.beam]
    exact h.inFrame
  · rw [hp.beam]
    exact fun hv => h.inBlank (hp.vblank hv)

theorem Timely.act {p : Ppu} (h : Timely p) (op : Op γ) : Timely (op.act p) := by
  cases op with
  | tick cart => exact h.tick cart
  | read cart number => exact h.fades (fades_readRegister p cart number)
  | write cart number v =>
    rcases alarm_writeRegister p cart number v with heq | heq
    · exact h.fades (.of_alarm heq)
    · have hcontrol : Timely (p.writeControl v) := ⟨h.inFrame, h.inBlank⟩
      exact hcontrol.fades (.of_alarm heq)
  | sprites page => exact h.fades (fades_writeSprites p page)
  | takeFrame => exact ⟨h.inFrame, h.inBlank⟩
  | poll => exact ⟨h.inFrame, h.inBlank⟩
  | reset => exact ⟨⟨h.inFrame.line_lt, h.inFrame.dot_lt⟩, h.inBlank⟩

theorem Timely.run {p : Ppu} (h : Timely p) (ops : List (Op γ)) : Timely (p.run ops) := by
  induction ops generalizing p with
  | nil => exact h
  | cons op ops ih => exact ih (h.act op)

theorem Fades.raises {p p' : Ppu} (h : Fades p p') : (!p.raises && p'.raises) = false := by
  unfold Ppu.raises
  rw [h.control]
  cases hv : p'.status.vblank with
  | false => rw [Bool.and_false, Bool.and_false]
  | true =>
    rw [h.vblank hv, Bool.and_true]
    exact Bool.not_and_self _

theorem Fades.nmi_eq {p p' : Ppu} (h : Fades p p') :
    p'.nmi = (p.nmi || (!p.raises && p'.raises)) := by
  rw [h.raises, h.nmi, Bool.or_false]

/-- The condition begins to hold when the blank starts with the interrupt enabled. -/
theorem Timely.rises_tick {p : Ppu} (h : Timely p) (cart : γ) :
    (Op.tick cart).rises p = (p.beam.entersVblank && p.control.nmiEnabled) := by
  have hcontrol : (p.tick cart).control = p.control :=
    congrArg Setting.control (setting_tick p cart)
  simp only [Op.rises, Op.act, raises, hcontrol, vblank_tick]
  by_cases he : p.beam.entersVblank = true
  · rw [h.vblank_of_entersVblank he, he]
    cases p.control.nmiEnabled <;> rfl
  · rw [Bool.not_eq_true] at he
    rw [he]
    cases p.control.nmiEnabled <;> cases p.status.vblank <;> cases p.endsFlags <;> rfl

/-- The latch takes note when the condition begins to hold, and never otherwise. -/
theorem Timely.nmi_act {p : Ppu} (h : Timely p) (op : Op γ) (hop : op.clears = false) :
    (op.act p).nmi = (p.nmi || op.rises p) := by
  cases op with
  | tick cart =>
    rw [h.rises_tick]
    exact nmi_tick p cart
  | read cart number => exact (fades_readRegister p cart number).nmi_eq
  | write cart number v =>
    rcases alarm_writeRegister p cart number v with heq | heq
    · exact (Fades.of_alarm heq).nmi_eq
    · have hact : Op.act p (.write cart number v) = (p.writeRegister cart number v).1 := rfl
      have hnmi : (p.writeRegister cart number v).1.nmi = (p.writeControl v).nmi :=
        congrArg Alarm.nmi heq
      rw [Op.rises, hact, hnmi, raises_of_alarm heq, writeControl, raises, raises]
      cases p.control.nmiEnabled <;> cases (Control.mk v).nmiEnabled <;>
        cases p.status.vblank <;> rfl
  | sprites page => exact (fades_writeSprites p page).nmi_eq
  | takeFrame => exact Fades.nmi_eq ⟨rfl, rfl, rfl, id⟩
  | poll => exact Bool.noConfusion hop
  | reset => exact Bool.noConfusion hop

/-- While nothing clears the latch, it is set with the first rise of the condition. -/
theorem Timely.nmi_run {p : Ppu} (h : Timely p) {ops : List (Op γ)}
    (hops : ∀ op ∈ ops, op.clears = false) :
    (p.run ops).nmi = true ↔
      p.nmi = true ∨ ∃ before op after, ops = before ++ op :: after ∧
        op.rises (p.run before) = true := by
  induction ops generalizing p with
  | nil =>
    refine ⟨Or.inl, fun hrun => hrun.resolve_right ?_⟩
    rintro ⟨before, op, after, heq, _⟩
    exact absurd heq.symm (List.append_ne_nil_of_right_ne_nil before (List.cons_ne_nil op after))
  | cons op ops ih =>
    have hrun : p.run (op :: ops) = (op.act p).run ops := rfl
    rw [hrun, ih (h.act op) fun op' hop' => hops op' (List.mem_cons_of_mem op hop'),
      h.nmi_act op (hops op List.mem_cons_self), Bool.or_eq_true, or_assoc]
    refine or_congr_right ?_
    constructor
    · rintro (hrises | ⟨before, op', after, heq, hrises⟩)
      · exact ⟨[], op, ops, rfl, hrises⟩
      · exact ⟨op :: before, op', after, by rw [heq, List.cons_append], hrises⟩
    · rintro ⟨_ | ⟨op', before⟩, op'', after, heq, hrises⟩
      · cases heq
        exact Or.inl hrises
      · cases heq
        exact Or.inr ⟨before, op'', after, rfl, hrises⟩

/-- Operations after which the latch is clear: there are none, or the last one clears it. -/
def Op.Cleared (ops : List (Op γ)) : Prop :=
  ops = [] ∨ ∃ init op, ops = init ++ [op] ∧ op.clears = true

theorem nmi_cleared {ops : List (Op γ)} (h : Op.Cleared ops) : (powerOn.run ops).nmi = false := by
  rcases h with rfl | ⟨init, op, rfl, hop⟩
  · rfl
  · rw [run_append]
    cases op <;> first | rfl | exact Bool.noConfusion hop

end Nes.Ppu
