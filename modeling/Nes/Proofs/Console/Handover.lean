import Nes.Console.Run
import Nes.Debug.Breakpoints

/-!
# A pause and the thread that ends it

While a console runs on a thread of its own, a host on another thread waits for the debugger to
publish where the console is held, and then ends the pause with an `Order`.  `Handover` is the state
of both threads around one pause, and `Handover.Step` tells what either can do next.  The run state
is kept under a lock, which the console has while it tests whether to go on; it lets the lock go
while it sleeps, and every order wakes it.  The mark to stop and the mark to reset are not under the
lock.

The console marks itself as paused only after its place has been published, and it does so whatever
has happened in between.  An order is heard if it comes after that mark, and an order to stop in any
case (`Handover.orders_heard`).  A release or a reset that comes before is lost: the console sleeps
and does not come out of the pause by itself (`Handover.lost_of_ne_stop`).

If the host waits for the mark, the two threads do what `Console.consult` does with a debugger that
carries out the order (`Handover.exists_consult`).
-/

namespace Nes.Console

/-- What ends a pause. -/
inductive Order
  /-- The console is to go on. -/
  | release
  /-- The console is to be reset, and to go on. -/
  | reset
  /-- The console is to stop. -/
  | stop
deriving DecidableEq, Repr

namespace Order

/-- An order as a whole. -/
def apply : Order → Remote → Remote
  | release => Remote.release
  | reset => Remote.reset
  | stop => Remote.stop

/-- What an order does before it takes the lock. -/
def announce : Order → Remote → Remote
  | release, r => r
  | reset, r => { r with resetRequested := true }
  | stop, r => r.stop

/-- What an order does under the lock. -/
def commit : Order → Remote → Remote
  | release, r | reset, r => r.release
  | stop, r => r

theorem commit_announce (o : Order) (r : Remote) : o.commit (o.announce r) = o.apply r := by
  cases o <;> rfl

end Order

/-- Where the console's thread is. -/
inductive Stage
  /-- About to ask the debugger. -/
  | asking
  /-- The debugger has published the place and asked for a pause. -/
  | published
  /-- Under the lock, about to test whether to go on. -/
  | testing
  /-- Under the lock, about to sleep. -/
  | settling
  /-- Asleep, without the lock. -/
  | waiting
  /-- Awake, and about to take the lock again. -/
  | woken
  /-- Past the pause. -/
  | left
deriving DecidableEq, Repr

/-- The console's thread has the lock. -/
def Stage.locked : Stage → Bool
  | testing | settling => true
  | _ => false

/-- The console has not marked itself as paused yet. -/
def Stage.early : Stage → Bool
  | asking | published => true
  | _ => false

/-- What the host's thread is at. -/
inductive Errand
  /-- It does not know of a pause. -/
  | away
  /-- It has seen where the console is held. -/
  | ready
  /-- It is giving an order, and has yet to take the lock. -/
  | giving (o : Order)
deriving DecidableEq, Repr

/-- The two threads around a pause. -/
structure Handover where
  /-- The remote control, which both share. -/
  remote : Remote
  /-- The debugger, which both share. -/
  debugger : Debug.Breakpoints
  /-- The console's thread. -/
  stage : Stage := .asking
  /-- The host's thread. -/
  errand : Errand := .away
  /-- The orders that were complete before the console marked itself as paused. -/
  before : List Order := []
  /-- The orders that have been completed since. -/
  since : List Order := []

namespace Handover

/-- What the console's thread does next.  While it sleeps, and after the pause, that is nothing. -/
def turn (pc : UInt16) (w : Handover) : Handover :=
  match w.stage with
  | .asking =>
    let (hit, debugger) := w.debugger.consult pc
    { w with debugger, stage := if hit then .published else .left }
  | .published => { w with remote := w.remote.pause, stage := .testing }
  | .testing =>
    if w.remote.runState = .paused ∧ w.remote.stopped = false then { w with stage := .settling }
    else { w with remote := w.remote.release, stage := .left }
  | .settling => { w with stage := .waiting }
  | .woken => { w with stage := .testing }
  | .waiting | .left => w

/-- The host completes an order under the lock and wakes the console. -/
def complete (w : Handover) (o : Order) : Handover :=
  { w with
    remote := o.commit w.remote
    stage := if w.stage = .waiting then .woken else w.stage
    errand := .ready
    before := if w.stage.early then o :: w.before else w.before
    since := if w.stage.early then w.since else o :: w.since }

/-- What the console's thread can do by itself. -/
inductive Own (pc : UInt16) : Handover → Handover → Prop
  /-- It goes on. -/
  | turn (w : Handover) : Own pc w (w.turn pc)
  /-- It wakes up without a reason. -/
  | wake {w : Handover} (h : w.stage = .waiting) : Own pc w { w with stage := .woken }

/-- What either thread can do. -/
inductive Step (pc : UInt16) : Handover → Handover → Prop
  /-- The console's thread does something. -/
  | own {w w' : Handover} (h : Own pc w w') : Step pc w w'
  /-- The host sees where the console is held. -/
  | observe {w : Handover} (hat : w.debugger.pausedAt = some pc) (h : w.errand = .away) :
    Step pc w { w with errand := .ready }
  /-- The host begins to give an order. -/
  | announce {w : Handover} (o : Order) (h : w.errand = .ready) :
    Step pc w { w with remote := o.announce w.remote, errand := .giving o }
  /-- The host takes the lock, completes the order and lets the lock go. -/
  | complete {w : Handover} {o : Order} (h : w.errand = .giving o)
      (hfree : w.stage.locked = false) : Step pc w (w.complete o)

/-- What the threads can come to. -/
inductive Reaches (pc : UInt16) (w₀ : Handover) : Handover → Prop
  /-- Nothing has happened. -/
  | start : Reaches pc w₀ w₀
  /-- One of the threads has done something. -/
  | step {w w' : Handover} (hw : Reaches pc w₀ w) (h : Step pc w w') : Reaches pc w₀ w'

/-- The console is about to ask the debugger. -/
def fresh (r : Remote) (b : Debug.Breakpoints) : Handover := { remote := r, debugger := b }

/-! ### Ways through a pause -/

variable {pc : UInt16} {w w' : Handover}

theorem Reaches.next {w₀ : Handover} (h : Reaches pc w₀ w) : Reaches pc w₀ (w.turn pc) :=
  h.step (.own (.turn w))

/-- The debugger publishes the place and asks for a pause. -/
theorem reaches_published (r : Remote) {b : Debug.Breakpoints} (hhit : b.hits pc = true) :
    Reaches pc (fresh r b)
      { remote := r, debugger := { b with pausedAt := some pc }, stage := .published } := by
  have hturn : (fresh r b).turn pc =
      { remote := r, debugger := { b with pausedAt := some pc }, stage := .published } := by
    simp only [turn, fresh, Debug.Breakpoints.consult, hhit, ↓reduceIte]
  rw [← hturn]
  exact Reaches.start.next

/-- The console marks itself as paused and falls asleep, if it is not to stop. -/
theorem Reaches.sleep {w₀ : Handover} (h : Reaches pc w₀ w) (hstage : w.stage = .published)
    (hgoes : w.remote.stopped = false) :
    Reaches pc w₀ { w with remote := w.remote.pause, stage := .waiting } := by
  obtain ⟨remote, debugger, stage, errand, before, since⟩ := w
  cases hstage
  have htested : turn pc ⟨remote.pause, debugger, .testing, errand, before, since⟩ =
      ⟨remote.pause, debugger, .settling, errand, before, since⟩ := if_pos ⟨rfl, hgoes⟩
  have hpaused : Reaches pc w₀ ⟨remote.pause, debugger, .testing, errand, before, since⟩ := h.next
  have hsettled := hpaused.next
  rw [htested] at hsettled
  exact hsettled.next

/-- The host, having seen where the console is held, gives an order. -/
theorem Reaches.order {w₀ : Handover} (h : Reaches pc w₀ w)
    (hat : w.debugger.pausedAt = some pc) (haway : w.errand = .away)
    (hfree : w.stage.locked = false) (o : Order) :
    Reaches pc w₀ (complete { w with remote := o.announce w.remote, errand := .giving o } o) :=
  ((h.step (.observe hat haway)).step (.announce o rfl)).step (.complete rfl hfree)

/-- An order that is complete before the mark only leaves its traces in the remote control. -/
theorem complete_early (hearly : w.stage.early = true) (o : Order) :
    w.complete o =
      { w with remote := o.commit w.remote, errand := .ready, before := o :: w.before } := by
  have hstage : w.stage ≠ .waiting := by
    intro h
    rw [h] at hearly
    exact nomatch hearly
  rw [complete, if_neg hstage, if_pos hearly, if_pos hearly]

/-- After the mark, an order finds the console awake or wakes it. -/
theorem complete_late (hearly : w.stage.early = false) (hfree : w.stage.locked = false)
    (o : Order) :
    ∃ stage, w.complete o =
        { w with
          remote := o.commit w.remote
          stage
          errand := .ready
          since := o :: w.since } ∧
      stage.early = false ∧ ¬(stage = .settling ∨ stage = .waiting) := by
  obtain ⟨remote, debugger, stage, errand, before, since⟩ := w
  cases stage with
  | asking => exact nomatch hearly
  | published => exact nomatch hearly
  | testing => exact nomatch hfree
  | settling => exact nomatch hfree
  | waiting => exact ⟨.woken, rfl, rfl, by decide⟩
  | woken => exact ⟨.woken, rfl, rfl, by decide⟩
  | left => exact ⟨.left, rfl, rfl, by decide⟩

/-! ### Which orders are heard -/

/-- What holds at every moment. -/
structure Sound (w : Handover) : Prop where
  /-- An order to stop that is being given has left its mark. -/
  announced : w.errand = .giving .stop → w.remote.stopped = true
  /-- So has one that has been given. -/
  stopped : Order.stop ∈ w.before ∨ Order.stop ∈ w.since → w.remote.stopped = true
  /-- Before the console has marked itself as paused, no order has come after that. -/
  early : w.stage.early = true → w.since = []
  /-- After an order that came after the mark, the console is to go on. -/
  heard : w.since ≠ [] → w.remote.runState = .running ∨ w.remote.stopped = true
  /-- The console does not fall asleep over an order that it hears. -/
  asleep : w.stage = .settling ∨ w.stage = .waiting → w.since = [] ∧ Order.stop ∉ w.before

theorem sound_fresh (r : Remote) (b : Debug.Breakpoints) : (fresh r b).Sound where
  announced h := nomatch h
  stopped h := by rcases h with h | h <;> exact absurd h List.not_mem_nil
  early _ := rfl
  heard h := absurd rfl h
  asleep _ := ⟨rfl, List.not_mem_nil⟩

/-- At another stage past the mark, the console does not sleep without a test. -/
theorem Sound.awake (hw : w.Sound) {stage : Stage} (hearly : stage.early = false)
    (hawake : ¬(stage = .settling ∨ stage = .waiting)) : Sound { w with stage } where
  announced := hw.announced
  stopped := hw.stopped
  early h := nomatch hearly.symm.trans h
  heard := hw.heard
  asleep h := absurd h hawake

/-- The first turns of the console change neither mark of an order. -/
theorem Sound.onset (hw : w.Sound) (hearly : w.stage.early = true) {remote : Remote}
    {debugger : Debug.Breakpoints} {stage : Stage} (hremote : remote.stopped = w.remote.stopped)
    (hawake : ¬(stage = .settling ∨ stage = .waiting)) :
    Sound { w with remote, debugger, stage } where
  announced h := hremote.trans (hw.announced h)
  stopped h := hremote.trans (hw.stopped h)
  early _ := hw.early hearly
  heard h := absurd (hw.early hearly) h
  asleep h := absurd h hawake

/-- The test finds out about every order that came after the mark, and about every stop. -/
theorem Sound.settle (hw : w.Sound) (hpaused : w.remote.runState = .paused)
    (hgoes : w.remote.stopped = false) : Sound { w with stage := .settling } where
  announced := hw.announced
  stopped := hw.stopped
  early h := nomatch h
  heard := hw.heard
  asleep _ := by
    constructor
    · refine Decidable.byContradiction fun hsince => ?_
      rcases hw.heard hsince with hrunning | hstopped
      · exact nomatch hrunning.symm.trans hpaused
      · exact nomatch hstopped.symm.trans hgoes
    · exact fun hstop => nomatch (hw.stopped (Or.inl hstop)).symm.trans hgoes

theorem Sound.turn (hw : w.Sound) (pc : UInt16) : (w.turn pc).Sound := by
  unfold Handover.turn
  split
  · next hstage =>
    refine hw.onset (by rw [hstage]; rfl) rfl ?_
    cases w.debugger.hits pc <;> decide
  · next hstage => exact hw.onset (by rw [hstage]; rfl) rfl (by decide)
  · next hstage =>
    split
    · next hwait => exact hw.settle hwait.1 hwait.2
    · have hleft : Sound { w with stage := .left } := hw.awake rfl (by decide)
      exact { hleft with heard := fun _ => Or.inl rfl }
  · next hstage =>
    exact ⟨hw.announced, hw.stopped, (nomatch ·), hw.heard, fun _ => hw.asleep (Or.inl hstage)⟩
  · exact hw.awake rfl (by decide)
  · exact hw
  · exact hw

theorem Sound.own (hw : w.Sound) (h : Own pc w w') : w'.Sound := by
  cases h with
  | turn => exact hw.turn pc
  | wake => exact hw.awake rfl (by decide)

/-- To announce an order changes the marks to stop and to reset only. -/
theorem Sound.announce (hw : w.Sound) (o : Order) :
    Sound { w with remote := o.announce w.remote, errand := .giving o } := by
  have hrun : (o.announce w.remote).runState = w.remote.runState := by cases o <;> rfl
  have hstopped : w.remote.stopped = true → (o.announce w.remote).stopped = true := by
    intro h
    cases o with
    | release => exact h
    | reset => exact h
    | stop => rfl
  refine ⟨fun h => ?_, fun h => hstopped (hw.stopped h), hw.early, fun h => ?_, hw.asleep⟩
  · cases h
    rfl
  · rcases hw.heard h with h | h
    · exact Or.inl (hrun.trans h)
    · exact Or.inr (hstopped h)

theorem Sound.complete (hw : w.Sound) {o : Order} (h : w.errand = .giving o)
    (hfree : w.stage.locked = false) : (w.complete o).Sound := by
  have hkept : (o.commit w.remote).stopped = w.remote.stopped := by cases o <;> rfl
  have htold : (o.commit w.remote).runState = .running ∨ (o.commit w.remote).stopped = true := by
    cases o with
    | release => exact Or.inl rfl
    | reset => exact Or.inl rfl
    | stop => exact Or.inr (hw.announced h)
  have hstop : o = .stop → w.remote.stopped = true := fun ho => hw.announced (ho ▸ h)
  have hstopped : Order.stop ∈ o :: w.before ∨ Order.stop ∈ o :: w.since →
      (o.commit w.remote).stopped = true := by
    simp only [List.mem_cons]
    rintro ((ho | hmem) | (ho | hmem))
    · exact hkept.trans (hstop ho.symm)
    · exact hkept.trans (hw.stopped (Or.inl hmem))
    · exact hkept.trans (hstop ho.symm)
    · exact hkept.trans (hw.stopped (Or.inr hmem))
  cases hearly : w.stage.early with
  | true =>
    rw [complete_early hearly o]
    refine ⟨(nomatch ·), fun hmem => hstopped (hmem.imp_right (List.mem_cons_of_mem o)),
      fun _ => hw.early hearly, fun hsince => absurd (hw.early hearly) hsince, fun hasleep => ?_⟩
    change w.stage = .settling ∨ w.stage = .waiting at hasleep
    rcases hasleep with hstage | hstage <;> rw [hstage] at hearly <;> exact nomatch hearly
  | false =>
    obtain ⟨stage, hcomplete, hlate, hawake⟩ := complete_late hearly hfree o
    rw [hcomplete]
    exact ⟨(nomatch ·), fun hmem => hstopped (hmem.imp_left (List.mem_cons_of_mem o)),
      fun hstage => absurd (hlate.symm.trans hstage) Bool.false_ne_true, fun _ => htold,
      fun hasleep => absurd hasleep hawake⟩

theorem Sound.step (hw : w.Sound) (h : Step pc w w') : w'.Sound := by
  cases h with
  | own h => exact hw.own h
  | observe hat h => exact ⟨(nomatch ·), hw.stopped, hw.early, hw.heard, hw.asleep⟩
  | announce o h => exact hw.announce o
  | complete h hfree => exact hw.complete h hfree

theorem Reaches.sound {w₀ : Handover} (h : Reaches pc w₀ w) (h₀ : w₀.Sound) : w.Sound := by
  induction h with
  | start => exact h₀
  | step _ h ih => exact ih.step h

/-! ### The end of a pause -/

theorem turn_left (hstage : w.stage = .left) : w.turn pc = w := by
  rw [turn, hstage]

/-- The console is to stop, or it has marked itself as paused and is to go on since. -/
def Told (w : Handover) : Prop :=
  w.remote.stopped = true ∨ w.stage.early = false ∧ w.remote.runState = .running

theorem turn_testing (hstage : w.stage = .testing) (htold : w.Told) :
    (w.turn pc).stage = .left := by
  have htest : ¬(w.remote.runState = .paused ∧ w.remote.stopped = false) := by
    rintro ⟨hpaused, hgoes⟩
    rcases htold with hstopped | ⟨-, hrunning⟩
    · exact nomatch hstopped.symm.trans hgoes
    · exact nomatch hrunning.symm.trans hpaused
  simp only [turn, hstage, htest, ↓reduceIte]

/-- Three turns then bring the console out of a pause from wherever it is awake. -/
theorem turns_of_told (hawake : ¬(w.stage = .settling ∨ w.stage = .waiting)) (htold : w.Told) :
    (Nat.repeat (turn pc) 3 w).stage = .left := by
  change (((w.turn pc).turn pc).turn pc).stage = .left
  obtain ⟨remote, debugger, stage, errand, before, since⟩ := w
  cases stage with
  | asking =>
    have hstopped : remote.stopped = true := htold.resolve_right fun h => nomatch h.1
    cases hhit : debugger.hits pc with
    | false =>
      have hleft : (turn pc ⟨remote, debugger, .asking, errand, before, since⟩).stage = .left := by
        simp only [turn, Debug.Breakpoints.consult, hhit, Bool.false_eq_true, ↓reduceIte]
      rw [turn_left hleft, turn_left hleft, hleft]
    | true =>
      have hpublished : turn pc ⟨remote, debugger, .asking, errand, before, since⟩ =
          ⟨remote, (debugger.consult pc).2, .published, errand, before, since⟩ := by
        simp only [turn, Debug.Breakpoints.consult, hhit, ↓reduceIte]
      rw [hpublished]
      exact turn_testing rfl (Or.inl hstopped)
  | published =>
    have hstopped : remote.stopped = true := htold.resolve_right fun h => nomatch h.1
    have hleft : ((turn pc ⟨remote, debugger, .published, errand, before, since⟩).turn pc).stage =
        .left := turn_testing rfl (Or.inl hstopped)
    rw [turn_left hleft, hleft]
  | testing =>
    have hleft : (turn pc ⟨remote, debugger, .testing, errand, before, since⟩).stage = .left :=
      turn_testing rfl htold
    rw [turn_left hleft, turn_left hleft, hleft]
  | settling => exact absurd (Or.inl rfl) hawake
  | waiting => exact absurd (Or.inr rfl) hawake
  | woken =>
    have hleft : ((turn pc ⟨remote, debugger, .woken, errand, before, since⟩).turn pc).stage =
        .left := turn_testing rfl htold
    rw [turn_left hleft, hleft]
  | left => rfl

/-- **Every order is heard that comes after the console has marked itself as paused, and every order
to stop.**  Whatever the two threads do, while the console sleeps there has been none; and after
one, three turns bring the console out of the pause. -/
theorem orders_heard {r : Remote} {b : Debug.Breakpoints} (h : Reaches pc (fresh r b) w) :
    (w.stage = .waiting → w.since = [] ∧ Order.stop ∉ w.before) ∧
    (w.since ≠ [] ∨ Order.stop ∈ w.before → (Nat.repeat (turn pc) 3 w).stage = .left) := by
  have hw := h.sound (sound_fresh r b)
  refine ⟨fun hwaiting => hw.asleep (Or.inr hwaiting), fun hheard => turns_of_told ?_ ?_⟩
  · intro hasleep
    obtain ⟨hsince, hstop⟩ := hw.asleep hasleep
    exact hheard.elim (absurd hsince) fun hmem => hstop hmem
  · rcases hheard with hsince | hstop
    · have hlate : w.stage.early = false := by
        rw [← Bool.not_eq_true]
        exact fun hearly => hsince (hw.early hearly)
      exact (hw.heard hsince).symm.imp_right fun hrunning => ⟨hlate, hrunning⟩
    · exact Or.inl (hw.stopped (Or.inl hstop))

/-- A release while the console sleeps. -/
theorem orders_heard_release :
    ∃ w, Reaches 0xC000 (fresh {} { addrs := [0xC000] }) w ∧ w.since = [.release] ∧
      (Nat.repeat (turn 0xC000) 3 w).stage = .left := by
  have hpublished : Reaches 0xC000 (fresh {} { addrs := [0xC000] }) _ := reaches_published {} rfl
  have hordered := (hpublished.sleep rfl rfl).order rfl rfl rfl .release
  exact ⟨_, hordered, rfl, (orders_heard hordered).2 (Or.inl (List.cons_ne_nil _ _))⟩

/-! ### Orders that are lost -/

/-- The console is paused, and nothing tells it to stop. -/
structure Held (w : Handover) : Prop where
  /-- The console is marked as paused. -/
  paused : w.remote.runState = .paused
  /-- It is not to stop. -/
  goes : w.remote.stopped = false
  /-- It has not come out of the pause. -/
  stage : w.stage.early = false ∧ w.stage ≠ .left

/-- What the console's thread can come to by itself. -/
inductive Alone (pc : UInt16) (w₀ : Handover) : Handover → Prop
  /-- Nothing has happened. -/
  | start : Alone pc w₀ w₀
  /-- The console's thread has done something. -/
  | own {w w' : Handover} (hw : Alone pc w₀ w) (h : Own pc w w') : Alone pc w₀ w'

theorem Held.own (hw : w.Held) (h : Own pc w w') : w'.Held := by
  obtain ⟨hpaused, hgoes, hearly, hleft⟩ := hw
  cases h with
  | wake h => exact ⟨hpaused, hgoes, rfl, (nomatch ·)⟩
  | turn =>
    obtain ⟨remote, debugger, stage, errand, before, since⟩ := w
    cases stage with
    | asking => exact nomatch hearly
    | published => exact nomatch hearly
    | testing =>
      have hturn : turn pc ⟨remote, debugger, .testing, errand, before, since⟩ =
          ⟨remote, debugger, .settling, errand, before, since⟩ := if_pos ⟨hpaused, hgoes⟩
      rw [hturn]
      exact ⟨hpaused, hgoes, rfl, (nomatch ·)⟩
    | settling => exact ⟨hpaused, hgoes, rfl, (nomatch ·)⟩
    | waiting => exact ⟨hpaused, hgoes, rfl, (nomatch ·)⟩
    | woken => exact ⟨hpaused, hgoes, rfl, (nomatch ·)⟩
    | left => exact absurd rfl hleft

/-- By itself the console does not come out of the pause. -/
theorem Held.alone (hw : w.Held) (h : Alone pc w w') : w'.Held := by
  induction h with
  | start => exact hw
  | own _ h ih => exact ih.own h

/-- An order is lost: the host has seen where the console is held and has completed the order, and
the console sleeps, marked as paused, and does not come out by itself. -/
def Lost (pc : UInt16) (w₀ : Handover) (o : Order) : Prop :=
  ∃ w, Reaches pc w₀ w ∧ w.debugger.pausedAt = some pc ∧ w.before = [o] ∧ w.errand = .ready ∧
    w.stage = .waiting ∧ w.remote.runState = .paused ∧
    ∀ w', Alone pc w w' → w'.stage ≠ .left ∧ w'.remote.runState = .paused

/-- **A release or a reset that comes between the publication and the mark is lost.** -/
theorem lost_of_ne_stop {r : Remote} {b : Debug.Breakpoints} (hhit : b.hits pc = true)
    (hgoes : r.stopped = false) {o : Order} (ho : o ≠ .stop) : Lost pc (fresh r b) o := by
  have hstays : ∀ {w w' : Handover}, w.Held → Alone pc w w' →
      w'.stage ≠ .left ∧ w'.remote.runState = .paused := fun hw h =>
    ⟨(hw.alone h).stage.2, (hw.alone h).paused⟩
  have hgoes' : (o.commit (o.announce r)).stopped = false := by
    rw [o.commit_announce]
    cases o with
    | release => exact hgoes
    | reset => exact hgoes
    | stop => exact absurd rfl ho
  have hordered := (reaches_published r hhit).order rfl rfl rfl o
  rw [complete_early rfl] at hordered
  refine ⟨_, hordered.sleep rfl hgoes', rfl, rfl, rfl, rfl, rfl, fun w' h => hstays ?_ h⟩
  exact ⟨rfl, hgoes', rfl, (nomatch ·)⟩

/-- A release and a reset are lost at a breakpoint. -/
theorem lost_breakpoint :
    Lost 0xC000 (fresh {} { addrs := [0xC000] }) .release ∧
      Lost 0xC000 (fresh {} { addrs := [0xC000] }) .reset :=
  ⟨lost_of_ne_stop rfl rfl (nomatch ·), lost_of_ne_stop rfl rfl (nomatch ·)⟩

/-! ### The console and its host in turn -/

/-- A debugger with breakpoints, whose host gives an order once the console is held. -/
def obeying (o : Order) : Debugger Debug.Breakpoints where
  consult c b :=
    let (hit, b) := b.consult c.cpu.pc
    (hit, c.remote, b)
  hold c b := (o.apply c.remote, b)

/-- If the host gives its order while the console sleeps, the two threads do what the console does
with a debugger that gives the order. -/
theorem exists_consult (o : Order) (h : Host Debug.Breakpoints)
    (hdebugger : h.debugger = some (obeying o)) (c : Console) (b : Debug.Breakpoints)
    (hhit : b.hits c.cpu.pc = true) (hgoes : c.remote.stopped = false) :
    ∃ w, Reaches c.cpu.pc (fresh c.remote b) w ∧ w.since = [o] ∧ w.stage = .left ∧
      c.consult h b =
        (!w.remote.stopped, { c with remote := w.remote, pauseCycles := c.cycles },
          w.debugger) := by
  have hwoken := ((reaches_published c.remote hhit).sleep rfl hgoes).order rfl rfl rfl o
  have htested := hwoken.next.next
  have htold : ¬((o.commit (o.announce c.remote.pause)).runState = .paused ∧
      (o.commit (o.announce c.remote.pause)).stopped = false) := by
    cases o with
    | release => exact fun h => nomatch h.1
    | reset => exact fun h => nomatch h.1
    | stop => exact fun h => nomatch h.2
  have hleft : ∀ {w : Handover}, ¬(w.remote.runState = .paused ∧ w.remote.stopped = false) →
      w.stage = .testing →
        w.turn c.cpu.pc = { w with remote := w.remote.release, stage := .left } :=
    fun h hstage => by simp only [turn, hstage, h, ↓reduceIte]
  rw [hleft htold rfl] at htested
  refine ⟨_, htested, rfl, rfl, ?_⟩
  rw [consult, hdebugger]
  simp only [obeying, Debug.Breakpoints.consult, hhit, ↓reduceIte, ← o.commit_announce]
  cases o <;> rfl

end Handover

end Nes.Console
