import Nes.Controller
import Mathlib.Data.List.Induction
import Mathlib.Data.Nat.Bitwise

/-!
# What a controller answers

A controller has a history of writes, reads and buttons (`Controller.Op`).  Of the buttons and the
strobe only the last operations matter (`held`, `strobed`).  While the strobe is high, the shift
register follows the buttons; when it falls, the register keeps the buttons of that moment, and
from then on each read moves it by one bit and a one comes in at the top.  So the number of reads
since then tells which bit is handed out next: `HandsOut c latch n` says that `n` bits of `latch`
are gone, and every operation keeps it but a write that raises the strobe (`HandsOut.act`).

A history ends with a high strobe, or the strobe has fallen in it and not risen again, or it has
never been high (`history_cases`); the answers to the next read are told by `read_of_strobed`,
`read_of_fall` and `read_of_never`.
-/

namespace Nes.Controller

/-! ### Histories -/

/-- What happens to a controller. -/
inductive Op
  /-- A write to the controllers. -/
  | write (v : UInt8)
  /-- A read. -/
  | read
  /-- A button is pressed or released. -/
  | setButton (button : Button) (pressed : Bool)
  /-- The buttons held down are set. -/
  | setState (state : UInt8)
deriving DecidableEq, Repr

namespace Op

/-- A read. -/
def isRead : Op → Bool
  | read => true
  | _ => false

/-- A write. -/
def isWrite : Op → Bool
  | write _ => true
  | _ => false

/-- A write with bit 0 set. -/
def raises : Op → Bool
  | write v => v &&& 1 != 0
  | _ => false

/-- The strobe after an operation: bit 0 of what is written. -/
def strobe (high : Bool) : Op → Bool
  | write v => v &&& 1 != 0
  | _ => high

/-- The buttons held down after an operation. -/
def held (state : UInt8) : Op → UInt8
  | setButton button pressed => if pressed then state ||| button.mask else state &&& ~~~button.mask
  | setState state => state
  | write _ | read => state

end Op

/-- The controller after an operation. -/
def act (c : Controller) : Op → Controller
  | .write v => c.write v
  | .read => c.read.2
  | .setButton button pressed => c.setButton button pressed
  | .setState state => c.setState state

/-- The controller after some operations. -/
def run (c : Controller) (ops : List Op) : Controller := ops.foldl act c

/-- Bit 0 of the last write of a history. -/
def strobed (ops : List Op) : Bool := ops.foldl Op.strobe false

/-- The buttons held down after a history; none are at first. -/
def held (ops : List Op) : UInt8 := ops.foldl Op.held 0

theorem run_append (c : Controller) (ops ops' : List Op) :
    c.run (ops ++ ops') = (c.run ops).run ops' := List.foldl_append

theorem read_of_high {c : Controller} (h : c.strobe = true) :
    c.read = (c.state &&& 1 ||| openBus, c) := if_pos h

theorem read_of_low {c : Controller} (h : c.strobe = false) :
    c.read = (c.shift &&& 1 ||| openBus, { c with shift := c.shift >>> 1 ||| 0x80 }) :=
  if_neg (Bool.eq_false_iff.1 h)

/-- A read leaves the buttons and the strobe alone. -/
theorem read_cases (c : Controller) : ∃ shift, c.read.2 = { c with shift } := by
  unfold read
  split
  · exact ⟨c.shift, rfl⟩
  · exact ⟨_, rfl⟩

theorem strobe_act (c : Controller) (op : Op) : (c.act op).strobe = op.strobe c.strobe := by
  cases op with
  | read =>
    obtain ⟨shift, h⟩ := c.read_cases
    exact (congrArg Controller.strobe h).trans rfl
  | _ => rfl

theorem state_act (c : Controller) (op : Op) : (c.act op).state = op.held c.state := by
  cases op with
  | read =>
    obtain ⟨shift, h⟩ := c.read_cases
    exact (congrArg Controller.state h).trans rfl
  | _ => rfl

theorem strobe_run (ops : List Op) : (run {} ops).strobe = strobed ops := by
  induction ops using List.reverseRecOn with
  | nil => rfl
  | append_singleton ops op ih =>
    rw [run_append, strobed, List.foldl_append, ← strobed, ← ih]
    exact strobe_act _ op

theorem state_run (ops : List Op) : (run {} ops).state = held ops := by
  induction ops using List.reverseRecOn with
  | nil => rfl
  | append_singleton ops op ih =>
    rw [run_append, held, List.foldl_append, ← held, ← ih]
    exact state_act _ op

/-! ### The shift register -/

/-- While the strobe is high, the register follows the buttons. -/
def Follows (c : Controller) : Prop := c.strobe = true → c.shift = c.state

theorem Follows.act {c : Controller} (h : c.Follows) (op : Op) : (c.act op).Follows := by
  cases op with
  | write v =>
    intro hraises
    exact if_pos hraises
  | read =>
    intro hhigh
    rw [strobe_act] at hhigh
    rw [Controller.act, read_of_high hhigh]
    exact h hhigh
  | setButton button pressed => exact fun hhigh => if_pos hhigh
  | setState state => exact fun hhigh => if_pos hhigh

theorem follows_run (ops : List Op) : (run {} ops).Follows := by
  induction ops using List.reverseRecOn with
  | nil => exact fun _ => rfl
  | append_singleton ops op ih =>
    rw [run_append]
    exact ih.act op

/-- The strobe is low, and `n` bits of `latch` have been handed out.  A one has come in at the top
for each of them. -/
structure HandsOut (c : Controller) (latch : UInt8) (n : Nat) : Prop where
  /-- The strobe is low. -/
  low : c.strobe = false
  /-- The bits left, and the ones above them. -/
  bit : ∀ i < 8, c.shift.toNat.testBit i = (decide (8 ≤ n + i) || latch.toNat.testBit (n + i))

theorem testBit_shifted (shift : UInt8) (i : Nat) :
    (shift >>> 1 ||| 0x80).toNat.testBit i = (shift.toNat.testBit (i + 1) || decide (i = 7)) := by
  have htop : (0x80 : UInt8).toNat = 2 ^ 7 := rfl
  rw [UInt8.toNat_or, UInt8.toNat_shiftRight, htop, Nat.testBit_or, Nat.testBit_two_pow]
  change ((shift.toNat >>> 1).testBit i || _) = _
  rw [Nat.testBit_shiftRight, Nat.add_comm 1 i]
  simp only [eq_comm]

namespace HandsOut

variable {c : Controller} {latch : UInt8} {n : Nat}

theorem read (h : c.HandsOut latch n) : c.read.2.HandsOut latch (n + 1) := by
  rw [read_of_low h.low]
  refine ⟨h.low, fun i hi => ?_⟩
  rw [testBit_shifted]
  by_cases htop : i = 7
  · rw [htop, decide_eq_true rfl, Bool.or_true, decide_eq_true (by omega), Bool.true_or]
  · rw [h.bit (i + 1) (by omega), decide_eq_false htop, Bool.or_false,
      show n + 1 + i = n + (i + 1) by omega]

/-- **Only reads move the register**, and buttons do not matter to it. -/
theorem act (h : c.HandsOut latch n) {op : Op} (hop : op.raises = false) :
    (c.act op).HandsOut latch (n + if op.isRead then 1 else 0) := by
  cases op with
  | write v =>
    have hshift : (c.write v).shift = c.shift := if_neg (Bool.eq_false_iff.1 hop)
    refine ⟨hop, ?_⟩
    change ∀ i < 8, (c.write v).shift.toNat.testBit i = _
    rw [hshift]
    exact h.bit
  | read => exact h.read
  | setButton button pressed =>
    have hshift : (c.setButton button pressed).shift = c.shift := if_neg (Bool.eq_false_iff.1 h.low)
    refine ⟨h.low, ?_⟩
    change ∀ i < 8, (c.setButton button pressed).shift.toNat.testBit i = _
    rw [hshift]
    exact h.bit
  | setState state =>
    have hshift : (c.setState state).shift = c.shift := if_neg (Bool.eq_false_iff.1 h.low)
    refine ⟨h.low, ?_⟩
    change ∀ i < 8, (c.setState state).shift.toNat.testBit i = _
    rw [hshift]
    exact h.bit

theorem run (h : c.HandsOut latch n) {ops : List Op} (hops : ∀ op ∈ ops, op.raises = false) :
    (c.run ops).HandsOut latch (n + ops.countP Op.isRead) := by
  induction ops generalizing c n with
  | nil => exact h
  | cons op ops ih =>
    rw [List.forall_mem_cons] at hops
    rw [List.countP_cons, Nat.add_comm (List.countP _ ops), ← Nat.add_assoc]
    exact ih (h.act hops.1) hops.2

end HandsOut

/-- With the fall of the strobe the register keeps the buttons. -/
theorem handsOut_fall {c : Controller} (hfollows : c.Follows) (hhigh : c.strobe = true) {v : UInt8}
    (hv : (v &&& 1 != 0) = false) : (c.write v).HandsOut c.state 0 := by
  have hshift : (c.write v).shift = c.shift := if_neg (Bool.eq_false_iff.1 hv)
  refine ⟨hv, fun i hi => ?_⟩
  rw [hshift, hfollows hhigh, Nat.zero_add, decide_eq_false (by omega), Bool.false_or]

/-- A new controller is as if the strobe had just fallen with no button held down. -/
theorem handsOut_new : HandsOut {} 0 0 := by
  refine ⟨rfl, fun i hi => ?_⟩
  rw [Nat.zero_add, decide_eq_false (by omega), Bool.false_or]

/-! ### Answers -/

theorem and_one (x : UInt8) : x &&& 1 = if x.toNat.testBit 0 then 1 else 0 := by
  have hall : ∀ x : Fin 256,
      UInt8.ofFin x &&& 1 = if (UInt8.ofFin x).toNat.testBit 0 then 1 else 0 := by decide +kernel
  exact hall x.toFin

/-- What is answered for the lowest bit of a byte. -/
theorem answer_eq (x : UInt8) : x &&& 1 ||| openBus = 0x40 + (x &&& 1) := by
  rw [and_one]
  split <;> rfl

theorem shift_and_one (latch : UInt8) {n : Nat} (hn : n < 8) :
    latch >>> UInt8.ofNat n &&& 1 = if latch.toNat.testBit n then 1 else 0 := by
  have hamount : (UInt8.ofNat n).toNat % 8 = n := by
    rw [UInt8.toNat_ofNat_of_lt' (show n < 256 by omega), Nat.mod_eq_of_lt hn]
  rw [and_one, UInt8.toNat_shiftRight, hamount, Nat.testBit_shiftRight, Nat.add_zero]

/-- The bits of the latch are handed out in order, and ones after the eighth. -/
theorem HandsOut.answer {c : Controller} {latch : UInt8} {n : Nat} (h : c.HandsOut latch n) :
    c.read.1 = if n < 8 then 0x40 + (latch >>> UInt8.ofNat n &&& 1) else 0x41 := by
  have hnext := h.bit 0 (by decide)
  rw [Nat.add_zero] at hnext
  rw [read_of_low h.low]
  change c.shift &&& 1 ||| openBus = _
  rw [answer_eq, and_one, hnext]
  by_cases hn : n < 8
  · rw [decide_eq_false (Nat.not_le.2 hn), Bool.false_or, if_pos hn, shift_and_one latch hn]
  · rw [decide_eq_true (Nat.le_of_not_lt hn), Bool.true_or, if_neg hn]
    rfl

/-- While the strobe is high, a read answers the first button. -/
theorem read_of_strobed {ops : List Op} (h : strobed ops = true) :
    (run {} ops).read.1 = 0x40 + (held ops &&& 1) := by
  rw [read_of_high ((strobe_run ops).trans h), state_run]
  exact answer_eq _

/-- Once the strobe has fallen, reads answer the buttons of that moment in order. -/
theorem read_of_fall {before after : List Op} {v : UInt8} (hbefore : strobed before = true)
    (hv : v &&& 1 = 0) (hafter : ∀ op ∈ after, op.raises = false) :
    let n := after.countP Op.isRead
    (run {} (before ++ .write v :: after)).read.1 =
      if n < 8 then 0x40 + (held before >>> UInt8.ofNat n &&& 1) else 0x41 := by
  intro n
  have hfall := handsOut_fall (follows_run before) ((strobe_run before).trans hbefore)
    (bne_eq_false_iff_eq.2 hv)
  rw [state_run] at hfall
  have hafter := (hfall.run hafter).answer
  rw [Nat.zero_add] at hafter
  rw [run_append]
  exact hafter

/-- A strobe that was never high is as if it had just fallen with no button held down. -/
theorem read_of_never {ops : List Op} (hops : ∀ op ∈ ops, op.raises = false) :
    (run {} ops).read.1 = if ops.countP Op.isRead < 8 then 0x40 else 0x41 := by
  have hrun := (handsOut_new.run hops).answer
  rw [Nat.zero_add] at hrun
  rw [hrun]
  split
  · next hlt => rw [shift_and_one 0 hlt]; simp
  · rfl

/-- **The three kinds of histories.**  The strobe is high, or it has fallen and not risen since, or
it was never high. -/
theorem history_cases (ops : List Op) :
    strobed ops = true ∨
    (∃ before v after, ops = before ++ .write v :: after ∧ strobed before = true ∧ v &&& 1 = 0 ∧
      ∀ op ∈ after, op.raises = false) ∨
    ∀ op ∈ ops, op.raises = false := by
  induction ops using List.reverseRecOn with
  | nil => exact Or.inr (Or.inr nofun)
  | append_singleton ops op ih =>
    have hstrobe : strobed (ops ++ [op]) = op.strobe (strobed ops) := List.foldl_append
    by_cases hraises : op.raises = true
    · left
      cases op with
      | write v => exact hstrobe.trans hraises
      | _ => exact Bool.noConfusion hraises
    · rw [Bool.not_eq_true] at hraises
      rcases ih with hhigh | ⟨before, v, after, rfl, hbefore, hv, hafter⟩ | hnever
      · cases op with
        | write v =>
          exact Or.inr (Or.inl ⟨ops, v, [], rfl, hhigh, bne_eq_false_iff_eq.1 hraises, nofun⟩)
        | _ => exact Or.inl (hstrobe.trans hhigh)
      · refine Or.inr (Or.inl ⟨before, v, after ++ [op], ?_, hbefore, hv, ?_⟩)
        · rw [List.append_assoc, List.cons_append]
        · exact List.forall_mem_append.2 ⟨hafter, List.forall_mem_singleton.2 hraises⟩
      · exact Or.inr (Or.inr
          (List.forall_mem_append.2 ⟨hnever, List.forall_mem_singleton.2 hraises⟩))

end Nes.Controller
