import Nes.Cartridge.Basic
import Nes.Config
import Nes.Cpu.Machine

/-!
# Errors

Everything that can go wrong while a cartridge is loaded or run (`Error`), and how it is reported
(`Error.message`).
-/

namespace Nes

/-- What can go wrong. -/
inductive Error
  /-- The image is not that of a cartridge. -/
  | format (e : Cartridge.FormatError)
  /-- The board with this number is unknown. -/
  | unsupportedMapper (id : Nat)
  /-- A file could not be read. -/
  | io
  /-- The processor met a `JAM`. -/
  | jam (j : Cpu.Jam)
  /-- A callback failed. -/
  | callbackFailed (text : String)
  /-- The settings cannot be used. -/
  | config (e : Config.Invalid)
deriving DecidableEq, Repr

/-- The error in words. -/
def Error.message : Error → String
  | format e => "invalid ROM image: " ++ e.message
  | unsupportedMapper id => s!"unsupported mapper {id}"
  | io => "I/O error"
  | jam j =>
    "CPU jammed by opcode $" ++ Hexadecimal.byte j.opcode ++ " at $" ++ Hexadecimal.word j.addr
  | callbackFailed text => "emulation panicked: " ++ text
  | config e => "invalid configuration: " ++ e.message

end Nes
