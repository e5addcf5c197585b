import Nes.Text.Printable

/-!
# Quoted text

`Quoted.encode` writes a text between quotes, so that every character of it can be seen: quotes and
backslashes get a backslash before them, and characters that are not printable are written as what
they are called.
-/

namespace Nes.Text.Quoted

/-- The lower-case hexadecimal digits of a number, without leading zeros. -/
def hexadecimal (n : Nat) : String := String.ofList (Nat.toDigits 16 n)

/-- A character as it stands between quotes. -/
def encodeChar (c : Char) : String :=
  if c == '\x00' then "\\0"
  else if c == '\t' then "\\t"
  else if c == '\n' then "\\n"
  else if c == '\r' then "\\r"
  else if c == '\\' then "\\\\"
  else if c == '\"' then "\\\""
  else if isPrintable c then String.singleton c
  else "\\u\x7b" ++ hexadecimal c.toNat ++ "\x7d"

/-- A text between quotes. -/
def encode (s : String) : String := "\"" ++ String.join (s.toList.map encodeChar) ++ "\""

end Nes.Text.Quoted
