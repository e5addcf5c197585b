import Mathlib.Data.Nat.Bitwise

/-!
# Arithmetic that can stop

The definitions of the library compute with numbers of any size.  A machine has words, and stops at
a result that does not fit one, at a difference below zero, and at a division by zero.  The
operations here answer `none` where it stops.  A function that is written with them, and answers
what a definition of the library does, meets none of this.
-/

namespace Nes.Checked

/-- A number that fits a word of so many bits. -/
def word (bits n : Nat) : Option Nat := if n < 2 ^ bits then some n else none

/-- A sum in a word. -/
def add (bits a b : Nat) : Option Nat := word bits (a + b)

/-- A product in a word. -/
def mul (bits a b : Nat) : Option Nat := word bits (a * b)

/-- A difference. -/
def sub (a b : Nat) : Option Nat := if b ≤ a then some (a - b) else none

/-- A quotient. -/
def div (a b : Nat) : Option Nat := if b = 0 then none else some (a / b)

/-- A remainder. -/
def mod (a b : Nat) : Option Nat := if b = 0 then none else some (a % b)

/-- A word shifted to the left; the distance is less than its length. -/
def shl (bits a n : Nat) : Option Nat := if n < bits then some (a <<< n % 2 ^ bits) else none

/-- A word shifted to the right; the distance is less than its length. -/
def shr (bits a n : Nat) : Option Nat := if n < bits then some (a >>> n) else none

/-- A number that is an index into so many cells. -/
def fin (n i : Nat) : Option (Fin n) := if h : i < n then some ⟨i, h⟩ else none

/-- A number with a sign that fits a word of so many bits. -/
def signed (bits : Nat) (n : Int) : Option Int :=
  if -2 ^ (bits - 1) ≤ n ∧ n < 2 ^ (bits - 1) then some n else none

/-- A computation goes on with what its first step answers. -/
theorem bind_eq {α β : Type} {o : Option α} {a : α} {f : α → Option β} {y : Option β}
    (ho : o = some a) (h : f a = y) : (o >>= f) = y := by
  subst ho
  exact h

/-- Two choices on one condition agree if they do so on each side of it. -/
theorem ite_eq {α β : Type} {c : Prop} [Decidable c] {x y : β} {f : α → β} {a b : α}
    (hx : c → x = f a) (hy : ¬c → y = f b) : (if c then x else y) = f (if c then a else b) := by
  split_ifs with h
  · exact hx h
  · exact hy h

variable {bits a b n : Nat}

theorem word_eq (h : n < 2 ^ bits) : word bits n = some n := if_pos h

theorem add_eq (h : a + b < 2 ^ bits) : add bits a b = some (a + b) := if_pos h

theorem mul_eq (h : a * b < 2 ^ bits) : mul bits a b = some (a * b) := if_pos h

theorem sub_eq (h : b ≤ a) : sub a b = some (a - b) := if_pos h

theorem div_eq (h : b ≠ 0) : div a b = some (a / b) := if_neg h

theorem mod_eq (h : b ≠ 0) : mod a b = some (a % b) := if_neg h

theorem shl_eq (hn : n < bits) (h : a <<< n < 2 ^ bits) : shl bits a n = some (a <<< n) := by
  rw [shl, if_pos hn, Nat.mod_eq_of_lt h]

theorem shr_eq (h : n < bits) : shr bits a n = some (a >>> n) := if_pos h

theorem fin_eq (h : a < n) : fin n a = some ⟨a, h⟩ := dif_pos h

theorem signed_eq {n : Int} (hlow : -2 ^ (bits - 1) ≤ n) (hhigh : n < 2 ^ (bits - 1)) :
    signed bits n = some n := if_pos ⟨hlow, hhigh⟩

end Nes.Checked
