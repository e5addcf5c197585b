/-!
# Hexadecimal numerals

Listings and traces write bytes with two and addresses with four upper-case digits
(`Hexadecimal.byte`, `Hexadecimal.word`).  `Hexadecimal.value?` reads digits of either case back;
the numeral of a byte or of an address is read back as that number.
-/

namespace Nes.Hexadecimal

/-- The upper-case digit of `n % 16`. -/
def digit (n : Nat) : Char :=
  let d := n % 16
  if d < 10 then Char.ofNat (48 + d) else Char.ofNat (55 + d)

/-- The last `width` hexadecimal digits of `n`, the most significant first. -/
def digits : (width n : Nat) → List Char
  | 0, _ => []
  | width + 1, n => digits width (n / 16) ++ [digit n]

/-- A byte as two digits. -/
def byte (b : UInt8) : String := String.ofList (digits 2 b.toNat)

/-- An address as four digits. -/
def word (w : UInt16) : String := String.ofList (digits 4 w.toNat)

/-- The value of a digit of either case. -/
def digitValue? (c : Char) : Option Nat :=
  if '0' ≤ c ∧ c ≤ '9' then some (c.toNat - 48)
  else if 'A' ≤ c ∧ c ≤ 'F' then some (c.toNat - 55)
  else if 'a' ≤ c ∧ c ≤ 'f' then some (c.toNat - 87)
  else none

/-- The number that a list of digits stands for; `none` if one of them is no digit. -/
def value? (cs : List Char) : Option Nat :=
  cs.foldlM (fun n c => (digitValue? c).map (16 * n + ·)) 0

end Nes.Hexadecimal
