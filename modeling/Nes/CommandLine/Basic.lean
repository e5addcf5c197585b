import Nes.CommandLine.Arguments
import Nes.Console.Basic
import Nes.Cpu.Disassembly
import Nes.Debug.Breakpoints

/-!
# The command line

`CommandLine.run` is what a run of the program prints and how it ends, given its arguments and the
files that it finds: an `Outcome`.  The listing of a program is printed in colours
(`CommandLine.listing`).  There is no screen: a run that comes to the point where pictures would be
shown ends there.
-/

namespace Nes.CommandLine

/-- What a run leaves behind. -/
structure Outcome where
  /-- The code that it ends with. -/
  code : Nat
  /-- The lines that it prints. -/
  lines : Array String := #[]
  /-- What it complains about. -/
  complaint : Option String := none
deriving DecidableEq, Repr

/-- A text between the control sequences that set and reset a colour. -/
def coloured (colour text : String) : String := "\x1b[" ++ colour ++ "m" ++ text ++ "\x1b[0m"

/-- A line of a listing: addresses are grey, documented operations green, undocumented ones red. -/
def listingLine (l : Cpu.Disassembly.Line) : String :=
  coloured "38;5;244" (Hexadecimal.word l.addr) ++ "  " ++
    Cpu.Disassembly.Line.column 8 l.bytesText ++ " " ++
    coloured (if l.undocumented then "31" else "32") (l.marker ++ l.mnemonic) ++ " " ++ l.operand

/-- The listing of a cartridge's program. -/
def listing (cart : Cartridge) : Array String :=
  let origin := Debug.Breakpoints.listingOrigin cart.prgRom.size
  (Cpu.Disassembly.sweep cart.prgRom.toList origin).map listingLine

/-- The name that the program complains under. -/
def programName : String := "kestrel"

/-- A run that failed. -/
def Outcome.failed (reason : String) : Outcome where
  code := 1
  complaint := some (programName ++ ": " ++ reason)

/-- A run that needs a screen. -/
def Outcome.noScreen : Outcome := .failed "no display"

/-- How to use the program. -/
def usage : Array String := #[
  "A NES emulator",
  "",
  "Usage: " ++ programName ++ " [OPTIONS] <ROM>",
  "",
  "Arguments:",
  "  <ROM>  Path to the iNES / NES 2.0 ROM file",
  "",
  "Options:",
  "  -d, --disassemble                Print a colourised disassembly of the PRG ROM and exit",
  "      --chr                        Show the cartridge's pattern tables instead of running it",
  "      --sample-rate <SAMPLE_RATE>  Audio sample rate in Hz [default: 44100]",
  "  -s, --speed <SPEED>              Target frames per second (0 = unthrottled); defaults to " ++
    "the cartridge's region",
  "      --mirroring <MIRRORING>      Override the header's nametable mirroring [possible " ++
    "values: horizontal, vertical, lower, upper, four]",
  "      --region <REGION>            Override the header's TV system [possible values: ntsc, pal]",
  "  -b, --break <BREAKPOINTS>        Pause before the instruction at this hex address " ++
    "(repeatable)",
  "      --mute                       Run without audio",
  "  -v, --verbose...                 More log output (-v info, -vv debug, -vvv CPU trace)",
  "  -h, --help                       Print help"]

/-- The address that could not be read, in words; other misuse is not explained. -/
def Misuse.explanation : Misuse → Option String
  | badAddress value cause => some (Numeral.rejection value cause)
  | _ => none

/-- What follows when the arguments were not read to the end. -/
def Interruption.outcome : Interruption → Outcome
  | usage => { code := 0, lines := CommandLine.usage }
  | misuse m => { code := 2, complaint := m.explanation }

/-- What the options ask to be done with a cartridge. -/
def Options.play (o : Options) (cart : Cartridge) : Outcome :=
  if o.disassemble then { code := 0, lines := listing cart }
  else if o.chr then
    match Board.ofCartridge cart with
    | some _ => .noScreen
    | none => .failed (Error.unsupportedMapper cart.mapperId).message
  else
    match Console.powerOn cart o.config with
    | .ok _ => .noScreen
    | .error e => .failed e.message

/-- What the options ask to be done with an image, if there is one. -/
def Options.outcome (o : Options) (image : Option (Array UInt8)) : Outcome :=
  match image with
  | none => .failed Error.io.message
  | some bytes =>
    match Cartridge.ofBytes bytes with
    | .ok cart => o.play cart
    | .error e => .failed (Error.format e).message

/-- A run with arguments, where `files` holds the files that can be read. -/
def run (files : String → Option (Array UInt8)) (args : List String) : Outcome :=
  match Options.ofArguments args with
  | .ok o => o.outcome (o.path.bind files)
  | .error i => i.outcome

end Nes.CommandLine
