import Nes.Hexadecimal

/-!
# Notices

Programs sometimes access addresses at which nothing answers.  That is no error, but worth a
`Notice`.
-/

namespace Nes

/-- An access without effect. -/
inductive Notice
  /-- A read where nothing answers. -/
  | unmappedRead (addr : UInt16)
  /-- A write where nothing answers. -/
  | unmappedWrite (addr : UInt16) (value : UInt8)
  /-- A write into a program on a board without a chip. -/
  | romWrite (addr : UInt16) (value : UInt8)
deriving DecidableEq, Repr

/-- The notice in words. -/
def Notice.message : Notice → String
  | unmappedRead addr => "read from unmapped $" ++ Hexadecimal.word addr
  | unmappedWrite addr v =>
    "write $" ++ Hexadecimal.byte v ++ " to unmapped $" ++ Hexadecimal.word addr
  | romWrite addr v =>
    "ignored write $" ++ Hexadecimal.byte v ++ " to NROM PRG ROM at $" ++ Hexadecimal.word addr

end Nes
