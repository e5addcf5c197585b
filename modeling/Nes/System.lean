import Nes.Apu.Basic
import Nes.Board.Basic
import Nes.Bus
import Nes.Controller
import Nes.Notice
import Nes.Ppu.Access
import Nes.Ppu.Tick

/-!
# The system around the processor

`System` is the bus of the console: 2 KiB of memory, the picture and sound units, two controllers
and the board of a cartridge.  While the processor works, `System.tick` lets time pass for all of
them; a cycle of the processor is three dots of the picture.

Two devices take the bus from the processor and let it wait (`System.stall`): a copy of a page into
sprite memory (`System.copySprites`), and every byte that the sample channel fetches
(`System.feedSamples`).  `System.drain` lets the time pass that the processor waits, in which
further bytes may be fetched.
-/

namespace Nes

/-- All of the console but the processor. -/
structure System where
  /-- Memory, which repeats up to `$1FFF`. -/
  ram : Vector UInt8 0x800 := .replicate _ 0
  /-- The picture unit. -/
  ppu : Ppu := .powerOn
  /-- The sound unit. -/
  apu : Apu
  /-- The first controller. -/
  pad1 : Controller := {}
  /-- The second controller. -/
  pad2 : Controller := {}
  /-- The board of the cartridge. -/
  board : Board
  /-- The cycles since power-on. -/
  cycles : Nat := 0
  /-- The cycles that the processor has to wait. -/
  stall : Nat := 0
  /-- The accesses without effect, if they are noted. -/
  notices : Option (Array Notice) := none

namespace System

/-- The cycles that a copy into sprite memory takes, from an even cycle on. -/
def spriteCopyCycles : Nat := 513

/-- The cycles that the fetch of a byte of a sample takes. -/
def sampleFetchCycles : Nat := 4

/-- The cell of memory behind an address. -/
def ramIndex (addr : UInt16) : Fin 0x800 := ⟨addr.toNat % 0x800, Nat.mod_lt _ (by decide)⟩

/-- Notes an access without effect. -/
def note (s : System) (n : Notice) : System :=
  { s with notices := s.notices.map (·.push n) }

/-- The answer to a read of the processor. -/
def read (s : System) (addr : UInt16) : UInt8 × System :=
  if addr < 0x2000 then (s.ram[ramIndex addr], s)
  else if addr < 0x4000 then
    let (v, ppu) := s.ppu.readRegister s.board addr
    (v, { s with ppu })
  else if addr == 0x4015 then
    let (v, apu) := s.apu.readStatus
    (v, { s with apu })
  else if addr == 0x4016 then
    let (v, pad1) := s.pad1.read
    (v, { s with pad1 })
  else if addr == 0x4017 then
    let (v, pad2) := s.pad2.read
    (v, { s with pad2 })
  else if addr < 0x4018 then (Controller.openBus, s)
  else if addr < 0x4020 then (0, s.note (.unmappedRead addr))
  else (s.board.prgRead addr, s)

/-- What a read would answer, where it has no effect; zero for registers. -/
def peek (s : System) (addr : UInt16) : UInt8 :=
  if addr < 0x2000 then s.ram[ramIndex addr]
  else if addr < 0x4020 then 0
  else s.board.prgRead addr

/-- Copies a page into sprite memory, which takes a cycle more from an odd cycle on. -/
def copySprites (s : System) (page : UInt8) : System :=
  let (bytes, s) := Bus.listBy read s (page.toUInt16 <<< 8) 256
  { s with
    ppu := s.ppu.writeSprites bytes
    stall := s.stall + spriteCopyCycles + s.cycles % 2 }

/-- A write of the processor. -/
def write (s : System) (addr : UInt16) (v : UInt8) : System :=
  if addr < 0x2000 then { s with ram := s.ram.set (ramIndex addr) v }
  else if addr < 0x4000 then
    let (ppu, board) := s.ppu.writeRegister s.board addr v
    { s with ppu, board }
  else if addr == 0x4014 then s.copySprites v
  else if addr == 0x4016 then { s with pad1 := s.pad1.write v, pad2 := s.pad2.write v }
  else if addr < 0x4018 then { s with apu := s.apu.write addr v }
  else if addr < 0x4020 then s.note (.unmappedWrite addr v)
  else
    let s := if s.board.refusesWrite addr then s.note (.romWrite addr v) else s
    { s with board := s.board.prgWrite addr v }

instance : Bus System where
  read := read
  write := write

/-- The sample channel gets the byte that it wants, while the processor waits. -/
def feedSamples (s : System) : System :=
  match s.apu.dmc.fetchAddress with
  | none => s
  | some addr =>
    { s with apu := s.apu.feed (s.board.prgRead addr), stall := s.stall + sampleFetchCycles }

/-- Three dots of the picture. -/
def threeDots (s : System) : System :=
  let (ppu, board) := s.ppu.tickWith s.board
  let (ppu, board) := ppu.tickWith board
  let (ppu, board) := ppu.tickWith board
  { s with ppu, board }

/-- One cycle of the processor. -/
def tickOne (s : System) : System :=
  let s := s.threeDots
  let s := { s with apu := s.apu.tick }
  let s := s.feedSamples
  { s with board := s.board.clockCycle, cycles := s.cycles + 1 }

/-- So many cycles of the processor. -/
def tick (s : System) : Nat → System
  | 0 => s
  | n + 1 => s.tickOne.tick n

/-- Takes the cycles that the processor has to wait. -/
def takeStall (s : System) : Nat × System := (s.stall, { s with stall := 0 })

/-- Waits until there is nothing to wait for, at most `fuel` cycles, after `done` of them. -/
def drainWithin (s : System) (done : Nat) : (fuel : Nat) → Nat × System
  | 0 => (done, s)
  | fuel + 1 =>
    if s.stall = 0 then (done, s)
    else { s with stall := s.stall - 1 }.tickOne.drainWithin (done + 1) fuel

/-- Enough cycles for `drain`: the sample channel wants at most two bytes at once, and then one in
eight cycles, so that waiting for its bytes at most doubles the time and adds sixteen cycles. -/
def drainBound (s : System) : Nat := 2 * s.stall + 32

/-- Waits until there is nothing to wait for, and tells how long it took. -/
def drain (s : System) : Nat × System := s.drainWithin 0 s.drainBound

/-- An interrupt is requested. -/
def irq (s : System) : Bool := s.apu.irq || s.board.irq

/-- Whether the picture unit interrupts the processor, which is told once. -/
def pollNmi (s : System) : Bool × System :=
  let (raised, ppu) := s.ppu.pollNmi
  (raised, { s with ppu })

/-- Whether a picture has been completed, which is told once. -/
def takeFrame (s : System) : Bool × System :=
  let (ready, ppu) := s.ppu.takeFrame
  (ready, { s with ppu })

/-- Sets the buttons held down on both controllers. -/
def setPads (s : System) (state1 state2 : UInt8) : System :=
  { s with pad1 := s.pad1.setState state1, pad2 := s.pad2.setState state2 }

/-- After a reset: memory, controllers and the count of cycles stay. -/
def reset (s : System) : System :=
  { s with ppu := s.ppu.reset, apu := s.apu.reset, board := s.board.reset, stall := 0 }

end System

end Nes
