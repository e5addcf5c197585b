import Nes.Hexadecimal
import Nes.Text.Quoted

/-!
# Numerals in arguments

Arguments hold numbers of 32 bits in decimal digits (`Numeral.decimal?`) and addresses in
hexadecimal digits (`Numeral.address`).  Either may start with a sign, and an address with marks for
its base; a rejected address is reported with the cause.
-/

namespace Nes.CommandLine.Numeral

/-- Why an argument is no address. -/
inductive Invalid
  /-- There are no digits. -/
  | empty
  /-- A character is no digit. -/
  | badDigit
  /-- The number has more than 16 bits. -/
  | tooLarge
deriving DecidableEq, Repr

/-- What is wrong, in words. -/
def Invalid.message : Invalid → String
  | empty => "cannot parse integer from empty string"
  | badDigit => "invalid digit found in string"
  | tooLarge => "number too large to fit in target type"

/-- Reads on after digits of the value `n`.  The first character that is no digit, or that makes the
number too large, decides. -/
def readWord (n : Nat) : List Char → Except Invalid UInt16
  | [] => .ok (UInt16.ofNat n)
  | c :: cs =>
    match Hexadecimal.digitValue? c with
    | none => .error .badDigit
    | some d => if 16 * n + d < 0x10000 then readWord (16 * n + d) cs else .error .tooLarge

/-- Drops all marks `0x` at the start. -/
def dropMarks : List Char → List Char
  | '0' :: 'x' :: cs => dropMarks cs
  | cs => cs

/-- Reads an address: dollar signs, then marks `0x`, then a plus sign, then digits; all but the
digits may be missing. -/
def address (s : String) : Except Invalid UInt16 :=
  match dropMarks (s.toList.dropWhile (· == '$')) with
  | [] => .error .empty
  | '+' :: c :: cs => readWord 0 (c :: cs)
  | cs => readWord 0 cs

/-- Why a rejected address was rejected, with the address. -/
def rejection (s : String) (cause : Invalid) : String :=
  "bad address " ++ Text.Quoted.encode s ++ ": " ++ cause.message

/-- The value of decimal digits. -/
def decimalValue? (cs : List Char) : Option Nat :=
  if cs.isEmpty then none
  else cs.foldlM (fun n c => if c.isDigit then some (10 * n + (c.toNat - 48)) else none) 0

/-- Reads a number of 32 bits, with or without a sign; only zero can be negative. -/
def decimal? (s : String) : Option Nat :=
  match s.toList with
  | '-' :: cs => (decimalValue? cs).filter (· == 0)
  | '+' :: cs => (decimalValue? cs).filter (· < 0x100000000)
  | cs => (decimalValue? cs).filter (· < 0x100000000)

end Nes.CommandLine.Numeral
