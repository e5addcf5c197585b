import Nes.Console.Basic
import Nes.Cpu.Disassembly

/-!
# Breakpoints

A debugger that holds the console before instructions at chosen addresses, or before every
instruction, and that lists the program of the cartridge.
-/

namespace Nes.Debug

/-- The state of the debugger. -/
structure Breakpoints where
  /-- The addresses at which to hold, in ascending order. -/
  addrs : List UInt16 := []
  /-- The console is held before every instruction. -/
  stepping : Bool := false
  /-- The program. -/
  listing : Array Cpu.Disassembly.Line := #[]
  /-- Where the console is held. -/
  pausedAt : Option UInt16 := none
deriving Inhabited

namespace Breakpoints

/-- An ascending list with an address put in its place. -/
def insert (addr : UInt16) : List UInt16 → List UInt16
  | [] => [addr]
  | a :: rest =>
    if addr < a then addr :: a :: rest
    else if addr == a then a :: rest
    else a :: insert addr rest

/-- Holds at an address. -/
def add (b : Breakpoints) (addr : UInt16) : Breakpoints := { b with addrs := insert addr b.addrs }

/-- No longer holds at an address; tells whether it did. -/
def remove (b : Breakpoints) (addr : UInt16) : Bool × Breakpoints :=
  (b.addrs.contains addr, { b with addrs := b.addrs.erase addr })

/-- Holds before every instruction from now on. -/
def stepInto (b : Breakpoints) : Breakpoints := { b with stepping := true }

/-- Holds only at the chosen addresses from now on. -/
def resume (b : Breakpoints) : Breakpoints := { b with stepping := false }

/-- The line of the program at an address. -/
def lineAt (b : Breakpoints) (addr : UInt16) : Option Cpu.Disassembly.Line :=
  b.listing.find? (·.addr == addr)

/-- Where a program is listed: one that fits a single bank at the end, where its vectors lie. -/
def listingOrigin (size : Nat) : UInt16 := if size ≤ 0x4000 then 0xC000 else 0x8000

/-- Starts to watch a console. -/
def attach (b : Breakpoints) (c : Console) : Breakpoints :=
  let prg := c.system.board.prgRom
  { b with
    pausedAt := none
    listing := Cpu.Disassembly.sweep prg.toList (listingOrigin prg.size) }

/-- Whether to hold before the instruction at `pc`. -/
def hits (b : Breakpoints) (pc : UInt16) : Bool := b.stepping || b.addrs.contains pc

/-- Looks at the instruction at `pc`, and tells whether to hold. -/
def consult (b : Breakpoints) (pc : UInt16) : Bool × Breakpoints :=
  let hit := b.hits pc
  (hit, { b with pausedAt := if hit then some pc else none })

end Breakpoints

end Nes.Debug
