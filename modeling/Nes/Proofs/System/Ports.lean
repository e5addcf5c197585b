import Nes.Proofs.Controller
import Nes.Proofs.System.Frame

/-!
# The ports of the controllers

The two controllers are read at two addresses and written at one.  Of all that happens to a system,
a controller notices the writes to that address, the reads of its own and its own buttons
(`Touch.heard`), so that it has a history of its own (`System.pad_touch`).  The two histories have
nothing in common but the writes.

What a controller answers is told by its history (`Proofs/Controller`); `latch_and_index` puts this
together.
-/

namespace Nes

/-- The ports of the two controllers. -/
inductive Port
  | first | second
deriving DecidableEq, Repr

namespace Port

/-- Where the controller is read. -/
def addr : Port → UInt16
  | first => 0x4016
  | second => 0x4017

end Port

/-- The address at which both controllers are written. -/
def strobeAddr : UInt16 := 0x4016

/-- The controller at a port. -/
def System.pad (s : System) : Port → Controller
  | .first => s.pad1
  | .second => s.pad2

/-- The system with another controller at a port. -/
def System.withPad (s : System) (port : Port) (pad : Controller) : System :=
  match port with
  | .first => { s with pad1 := pad }
  | .second => { s with pad2 := pad }

/-- What happens to a system whose buttons are pressed at any time.  A copy into sprite memory is
the reads of its page and the copy itself (`System.replay_copyDeeds`). -/
inductive Touch
  /-- A deed. -/
  | deed (d : Deed)
  /-- A button of a controller is pressed or released. -/
  | button (port : Port) (button : Button) (pressed : Bool)
  /-- The buttons held down on a controller are set. -/
  | buttons (port : Port) (state : UInt8)

namespace Touch

/-- The system after a touch. -/
def act (s : System) : Touch → System
  | deed d => d.act s
  | button port which pressed => s.withPad port ((s.pad port).setButton which pressed)
  | buttons port state => s.withPad port ((s.pad port).setState state)

/-- What the controller at a port notices of a touch. -/
def heard (port : Port) : Touch → List Controller.Op
  | deed (.read addr) => if addr = port.addr then [.read] else []
  | deed (.write addr _ v) => if addr = strobeAddr then [.write v] else []
  | deed (.pads state1 state2) =>
    match port with
    | .first => [.setState state1]
    | .second => [.setState state2]
  | deed _ => []
  | button p which pressed => if p = port then [.setButton which pressed] else []
  | buttons p state => if p = port then [.setState state] else []

end Touch

namespace System

/-- The system after some touches. -/
def touch (s : System) (ts : List Touch) : System := ts.foldl Touch.act s

theorem pad_withPad (s : System) (port p : Port) (pad : Controller) :
    (s.withPad p pad).pad port = if p = port then pad else s.pad port := by
  cases p <;> cases port <;> rfl

/-- A read answers what the controller answers that is read, and no other notices. -/
theorem read_pad (s : System) (port : Port) :
    s.read port.addr = ((s.pad port).read.1, s.withPad port (s.pad port).read.2) := by
  cases port <;> rfl

theorem pad_read (s : System) (port : Port) (addr : UInt16) :
    (s.read addr).2.pad port = if addr = port.addr then (s.pad port).read.2 else s.pad port := by
  by_cases h1 : addr = Port.addr .first
  · rw [h1, read_pad, pad_withPad]
    cases port <;> rfl
  by_cases h2 : addr = Port.addr .second
  · rw [h2, read_pad, pad_withPad]
    cases port <;> rfl
  have hne : ¬addr = port.addr := by cases port <;> assumption
  have h1 : (addr == 0x4016) = false := beq_eq_false_iff_ne.2 h1
  have h2 : (addr == 0x4017) = false := beq_eq_false_iff_ne.2 h2
  rw [if_neg hne]
  unfold System.read
  simp only [h1, h2, Bool.false_eq_true, ↓reduceIte]
  split_ifs <;> cases port <;> rfl

theorem pad_write (s : System) (port : Port) {addr : UInt16} (hcopy : addr ≠ 0x4014) (v : UInt8) :
    (s.write addr v).pad port = if addr = strobeAddr then (s.pad port).write v else s.pad port := by
  have hcopy : (addr == 0x4014) = false := beq_eq_false_iff_ne.2 hcopy
  by_cases h : addr = strobeAddr
  · rw [if_pos h, h]
    cases port <;> rfl
  have hne : (addr == 0x4016) = false := beq_eq_false_iff_ne.2 h
  rw [if_neg h]
  unfold System.write
  simp only [hcopy, hne, Bool.false_eq_true, ↓reduceIte]
  split_ifs <;> cases port <;> rfl

/-- **What a controller notices.** -/
theorem pad_act (s : System) (port : Port) (t : Touch) :
    (t.act s).pad port = (s.pad port).run (t.heard port) := by
  cases t with
  | deed d =>
    cases d with
    | read addr =>
      rw [Touch.act, Deed.act, pad_read, Touch.heard]
      split <;> rfl
    | write addr hcopy v =>
      rw [Touch.act, Deed.act, pad_write s port hcopy, Touch.heard]
      split <;> rfl
    | fetch =>
      rcases s.feedSamples_cases with ⟨-, heq⟩ | ⟨-, v, heq⟩ <;>
        rw [Touch.act, Deed.act, heq] <;> cases port <;> rfl
    | _ => cases port <;> rfl
  | button p which pressed =>
    rw [Touch.act, pad_withPad, Touch.heard]
    split
    · next h => rw [h]; rfl
    · rfl
  | buttons p state =>
    rw [Touch.act, pad_withPad, Touch.heard]
    split
    · next h => rw [h]; rfl
    · rfl

theorem pad_touch (s : System) (port : Port) (ts : List Touch) :
    (s.touch ts).pad port = (s.pad port).run (ts.flatMap (Touch.heard port)) := by
  induction ts generalizing s with
  | nil => rfl
  | cons t ts ih =>
    rw [List.flatMap_cons, Controller.run_append, ← pad_act]
    exact ih (t.act s)

/-- The controllers hear the same writes. -/
theorem writes_heard (ts : List Touch) :
    (ts.flatMap (Touch.heard .first)).filter Controller.Op.isWrite =
      (ts.flatMap (Touch.heard .second)).filter Controller.Op.isWrite := by
  have hone : ∀ t : Touch, (t.heard .first).filter Controller.Op.isWrite =
      (t.heard .second).filter Controller.Op.isWrite := by
    intro t
    cases t with
    | deed d =>
      cases d with
      | read addr =>
        simp only [Touch.heard]
        split_ifs <;> rfl
      | _ => rfl
    | button p which pressed => cases p <;> rfl
    | buttons p state => cases p <;> rfl
  rw [List.filter_flatMap, List.filter_flatMap]
  exact congrArg ts.flatMap (funext hone)

/-- **A controller is a latch with an index.**  Whatever has been written, read and pressed:

* while bit 0 of the last write is set, a read answers `$40` and the first button as it is now;
* once the strobe has fallen, the reads that follow answer `$40` and the buttons of that moment in
  order, and `$41` after the eighth, whatever is pressed and whatever is written with bit 0 clear;
* if the strobe was never high, it is as if it had fallen with no button held down.

There are no other histories.  In a system, the controllers at both ports are such latches: what is
read at a port is told by what its controller has noticed.  They notice the same writes, and of all
else only their own reads and buttons. -/
theorem latch_and_index :
    (∀ ops, Controller.strobed ops = true →
      (Controller.run {} ops).read.1 = 0x40 + (Controller.held ops &&& 1)) ∧
    (∀ before v after, Controller.strobed before = true → v &&& 1 = 0 →
      (∀ op ∈ after, op.raises = false) →
      let n := after.countP Controller.Op.isRead
      (Controller.run {} (before ++ .write v :: after)).read.1 =
        if n < 8 then 0x40 + (Controller.held before >>> UInt8.ofNat n &&& 1) else 0x41) ∧
    (∀ ops : List Controller.Op, (∀ op ∈ ops, op.raises = false) →
      (Controller.run {} ops).read.1 =
        if ops.countP Controller.Op.isRead < 8 then 0x40 else 0x41) ∧
    (∀ ops, Controller.strobed ops = true ∨
      (∃ before v after, ops = before ++ .write v :: after ∧
        Controller.strobed before = true ∧ v &&& 1 = 0 ∧ ∀ op ∈ after, op.raises = false) ∨
      ∀ op ∈ ops, op.raises = false) ∧
    ∀ (s : System) (ts : List Touch),
      (∀ port, s.pad port = {} → ((s.touch ts).read port.addr).1 =
        (Controller.run {} (ts.flatMap (Touch.heard port))).read.1) ∧
      (ts.flatMap (Touch.heard .first)).filter Controller.Op.isWrite =
        (ts.flatMap (Touch.heard .second)).filter Controller.Op.isWrite := by
  refine ⟨fun _ => Controller.read_of_strobed, fun _ _ _ => Controller.read_of_fall,
    fun _ => Controller.read_of_never, Controller.history_cases,
    fun s ts => ⟨fun port hnew => ?_, writes_heard ts⟩⟩
  rw [read_pad, pad_touch, hnew]

/-- The strobe falls while a button is held down on each of the controllers; one is released after
that, and the other controller is read once. -/
theorem latch_and_index_shared :
    let s : System := {
      apu := .powerOn 44100 1789773
      board := {
        prgRom := #[0xEA]
        chr := #[0xFF]
        chrIsRam := false
        prgRam := .replicate _ 0
        wired := .horizontal
        chip := .nrom } }
    let ts : List Touch := [.button .first .a true, .button .second .b true,
      .deed (.write 0x4016 (by decide) 1), .deed (.write 0x4016 (by decide) 0),
      .button .first .a false, .deed (.read 0x4017)]
    ((s.touch ts).read 0x4016).1 = 0x41 ∧ ((s.touch ts).read 0x4017).1 = 0x41 := by
  intro s ts
  obtain ⟨-, hfall, -, -, hports⟩ := latch_and_index
  obtain ⟨hport, -⟩ := hports s ts
  refine ⟨(hport .first rfl).trans ?_, (hport .second rfl).trans ?_⟩
  · exact hfall [.setButton .a true, .write 1] 0 [.setButton .a false] rfl rfl (by decide)
  · exact hfall [.setButton .b true, .write 1] 0 [.read] rfl rfl (by decide)

end System

end Nes
