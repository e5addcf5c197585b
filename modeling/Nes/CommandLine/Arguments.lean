import Nes.CommandLine.Numeral
import Nes.Config

/-!
# Arguments

The arguments of a run are the path of an image and options.  A `Switch` is turned on; a `Setting`
takes a value, which is attached to it or is the next argument.  After an argument `--` all
arguments are paths.

`Options.ofArguments` reads the arguments from left to right with a `Reader`.  A path, or a value
that is an argument of its own, is looked at when the argument after it has been recognised: an
argument that cannot be recognised is complained about first.
-/

namespace Nes.CommandLine

/-- An option without a value. -/
inductive Switch
  /-- Prints the listing of the program. -/
  | disassemble
  /-- Shows the pattern tables. -/
  | chr
  /-- Plays no sound. -/
  | mute
  /-- Tells more about the run. -/
  | verbose
  /-- Prints the usage. -/
  | help
deriving DecidableEq, Repr

/-- An option with a value. -/
inductive Setting
  /-- The rate of the sound. -/
  | sampleRate
  /-- The pictures per second. -/
  | speed
  /-- The wiring of the nametables. -/
  | mirroring
  /-- The television system. -/
  | region
  /-- An address at which the debugger holds the console. -/
  | breakAt
deriving DecidableEq, Repr

/-- An option. -/
abbrev Flag := Switch ⊕ Setting

/-- The option with a long name. -/
def Flag.ofName? : String → Option Flag
  | "disassemble" => some (.inl .disassemble)
  | "chr" => some (.inl .chr)
  | "mute" => some (.inl .mute)
  | "verbose" => some (.inl .verbose)
  | "help" => some (.inl .help)
  | "sample-rate" => some (.inr .sampleRate)
  | "speed" => some (.inr .speed)
  | "mirroring" => some (.inr .mirroring)
  | "region" => some (.inr .region)
  | "break" => some (.inr .breakAt)
  | _ => none

/-- The option with a letter. -/
def Flag.ofLetter? : Char → Option Flag
  | 'd' => some (.inl .disassemble)
  | 'v' => some (.inl .verbose)
  | 'h' => some (.inl .help)
  | 's' => some (.inr .speed)
  | 'b' => some (.inr .breakAt)
  | _ => none

/-- Why the arguments were not taken. -/
inductive Misuse
  /-- There is no option of this name. -/
  | unknownOption (name : String)
  /-- A switch has a value. -/
  | needlessValue (s : Switch)
  /-- A setting has no value. -/
  | missingValue (s : Setting)
  /-- A switch is turned on twice. -/
  | repeatedSwitch (s : Switch)
  /-- A setting is given twice. -/
  | repeatedSetting (s : Setting)
  /-- A setting cannot have this value. -/
  | badValue (s : Setting) (value : String)
  /-- The address cannot be read. -/
  | badAddress (value : String) (cause : Numeral.Invalid)
  /-- The path is empty. -/
  | emptyPath
  /-- There is a second path. -/
  | secondPath (path : String)
  /-- There is no path. -/
  | noPath
deriving DecidableEq, Repr

/-- What the arguments ask for. -/
structure Options where
  /-- The path of the image. -/
  path : Option String := none
  /-- The listing is printed. -/
  disassemble : Bool := false
  /-- The pattern tables are shown. -/
  chr : Bool := false
  /-- No sound is played. -/
  mute : Bool := false
  /-- How much is told about the run. -/
  verbose : Nat := 0
  /-- The rate of the sound. -/
  sampleRate : Option Nat := none
  /-- The pictures per second. -/
  speed : Option Nat := none
  /-- The wiring of the nametables. -/
  mirroring : Option Mirroring := none
  /-- The television system. -/
  region : Option Cartridge.TvSystem := none
  /-- Where the debugger holds the console. -/
  breaks : List UInt16 := []
deriving Repr

/-- How reading the arguments ended early. -/
inductive Interruption
  /-- The arguments ask for the usage. -/
  | usage
  /-- The arguments are not taken. -/
  | misuse (m : Misuse)
deriving DecidableEq, Repr

namespace Options

/-- The wiring with a name. -/
def mirroring? : String → Option Mirroring
  | "horizontal" => some .horizontal
  | "vertical" => some .vertical
  | "lower" => some .oneScreenLower
  | "upper" => some .oneScreenUpper
  | "four" => some .fourScreen
  | _ => none

/-- The television system with a name. -/
def region? : String → Option Cartridge.TvSystem
  | "ntsc" => some .ntsc
  | "pal" => some .pal
  | _ => none

/-- Turns a switch on. -/
def turnOn (o : Options) : Switch → Except Interruption Options
  | .disassemble => if o.disassemble then throw (.misuse (.repeatedSwitch .disassemble))
    else return { o with disassemble := true }
  | .chr => if o.chr then throw (.misuse (.repeatedSwitch .chr)) else return { o with chr := true }
  | .mute => if o.mute then throw (.misuse (.repeatedSwitch .mute))
    else return { o with mute := true }
  | .verbose => return { o with verbose := o.verbose + 1 }
  | .help => throw .usage

/-- Reads a value that a setting has for the first time. -/
def valueOf {α : Type} (s : Setting) (old : Option α) (value : String) (read : String → Option α) :
    Except Interruption α :=
  if old.isSome then throw (.misuse (.repeatedSetting s))
  else match read value with
    | some v => return v
    | none => throw (.misuse (.badValue s value))

/-- Gives a setting a value. -/
def assign (o : Options) (s : Setting) (value : String) : Except Interruption Options :=
  match s with
  | .sampleRate => return { o with sampleRate := ← valueOf s o.sampleRate value Numeral.decimal? }
  | .speed => return { o with speed := ← valueOf s o.speed value Numeral.decimal? }
  | .mirroring => return { o with mirroring := ← valueOf s o.mirroring value mirroring? }
  | .region => return { o with region := ← valueOf s o.region value region? }
  | .breakAt =>
    match Numeral.address value with
    | .ok addr => return { o with breaks := o.breaks ++ [addr] }
    | .error cause => throw (.misuse (.badAddress value cause))

/-- The settings of the console. -/
def config (o : Options) : Config where
  sampleRate := o.sampleRate.getD 44100
  speed := o.speed
  mirroring := o.mirroring
  region := o.region

end Options

/-- What is looked at when the next argument has been recognised. -/
inductive Pending
  /-- A setting and its value, if there is one yet. -/
  | setting (s : Setting) (value : Option String)
  /-- A path. -/
  | path (path : String)
deriving DecidableEq, Repr

/-- The arguments as far as they have been read. -/
structure Reader where
  /-- What they ask for. -/
  options : Options := {}
  /-- What has not been looked at. -/
  pending : Option Pending := none
  /-- There has been a path. -/
  hasPath : Bool := false
  /-- All further arguments are paths. -/
  onlyPaths : Bool := false

namespace Reader

/-- Looks at what has not been looked at. -/
def settle (r : Reader) : Except Interruption Reader := do
  let done (options : Options) : Reader := { r with options, pending := none }
  match r.pending with
  | none => return r
  | some (.setting s none) => throw (.misuse (.missingValue s))
  | some (.setting s (some value)) => return done (← r.options.assign s value)
  | some (.path "") => throw (.misuse .emptyPath)
  | some (.path path) => return done { r.options with path := some path }

/-- A switch. -/
def switch (r : Reader) (s : Switch) : Except Interruption Reader := do
  let r ← r.settle
  return { r with options := ← r.options.turnOn s }

/-- A setting, with its value if that is attached. -/
def setting (r : Reader) (s : Setting) (value : Option String) : Except Interruption Reader := do
  let r ← r.settle
  match value with
  | some value => return { r with options := ← r.options.assign s value }
  | none => return { r with pending := some (.setting s none) }

/-- An option by its name, with a value after `=`. -/
def named (r : Reader) (name : String) (value : Option String) : Except Interruption Reader :=
  match Flag.ofName? name, value with
  | some (.inl s), none => r.switch s
  | some (.inl s), some _ => throw (.misuse (.needlessValue s))
  | some (.inr s), value => r.setting s value
  | none, _ => throw (.misuse (.unknownOption name))

/-- Options by their letters; what follows the letter of a setting is its value. -/
def letters (r : Reader) : List Char → Except Interruption Reader
  | [] => return r
  | c :: cs =>
    match Flag.ofLetter? c with
    | some (.inl s) => do letters (← r.switch s) cs
    | some (.inr s) =>
      match cs with
      | [] => r.setting s none
      | '=' :: value => r.setting s (some (String.ofList value))
      | value => r.setting s (some (String.ofList value))
    | none => throw (.misuse (.unknownOption (String.singleton c)))

/-- A path. -/
def path (r : Reader) (path : String) : Except Interruption Reader := do
  if r.hasPath then throw (.misuse (.secondPath path))
  return { ← r.settle with pending := some (.path path), hasPath := true }

/-- A path, or the value that a setting waits for. -/
def word (r : Reader) (arg : String) : Except Interruption Reader :=
  match r.pending with
  | some (.setting s none) => return { r with pending := some (.setting s (some arg)) }
  | _ => r.path arg

/-- One more argument. -/
def read (r : Reader) (arg : String) : Except Interruption Reader :=
  if r.onlyPaths then r.path arg
  else match arg.toList with
    | ['-', '-'] => return { r with onlyPaths := true }
    | '-' :: '-' :: cs =>
      let name := String.ofList (cs.takeWhile (· != '='))
      match cs.dropWhile (· != '=') with
      | [] => r.named name none
      | _ :: value => r.named name (some (String.ofList value))
    | '-' :: c :: cs => r.letters (c :: cs)
    | _ => r.word arg

end Reader

/-- Reads arguments. -/
def Options.ofArguments (args : List String) : Except Interruption Options := do
  let r ← args.foldlM Reader.read {}
  let { options, .. } ← r.settle
  if options.path.isNone then throw (.misuse .noPath)
  return options

end Nes.CommandLine
