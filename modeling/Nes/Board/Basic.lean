import Nes.Board.Chip
import Nes.Cartridge.Basic
import Nes.PictureBus

/-!
# Boards

A `Board` is what a cartridge puts on the buses of the processor and of the picture unit: its
program, its patterns, 8 KiB of work memory, and a chip that selects banks.  Every byte that a board
reads or writes lies at `Board.prgIndex` or `Board.chrIndex`, inside the program or the patterns.
-/

namespace Nes

/-- A cartridge at work. -/
structure Board where
  /-- The program. -/
  prgRom : Array UInt8
  /-- The patterns. -/
  chr : Array UInt8
  /-- The patterns can be written. -/
  chrIsRam : Bool
  /-- Work memory, at `$6000`. -/
  prgRam : Vector UInt8 0x2000
  /-- The nametables as the board wires them when its chip does not. -/
  wired : Mirroring
  /-- The chip. -/
  chip : Board.Chip
deriving DecidableEq, Repr

namespace Board

/-- Cleared work memory with the trainer, if there is one, at `$7000`. -/
def initialRam (trainer : Option (Array UInt8)) : Vector UInt8 0x2000 :=
  match trainer with
  | none => .replicate _ 0
  | some t => Vector.ofFn fun i => if i.val < 0x1000 then 0 else t.getD (i.val - 0x1000) 0

/-- The chip that the board with a cartridge's number carries; `none` for unknown boards. -/
def chipFor (cart : Cartridge) : Option Chip :=
  let vrc (wiring : Wiring) : Chip := .vrc { wiring, mirroring := cart.mirroring }
  match cart.mapperId with
  | 0 => some .nrom
  | 1 => some (.mmc1 {})
  | 2 => some (.uxRom 0)
  | 3 =>
    let banks := bankCount 0x2000 cart.chr.size
    some (.cnRom (UInt8.ofNat (powerFrom banks - 1)) 0)
  | 4 => some (.mmc3 (.powerOn cart.mirroring))
  | 21 => some (vrc .vrc4ac)
  | 22 => some (vrc .vrc2a)
  | 23 => some (vrc .vrc2bOr4ef)
  | 25 => some (vrc .vrc2cOr4bd)
  | _ => none

/-- The board of a cartridge; `none` if its number is unknown. -/
def ofCartridge (cart : Cartridge) : Option Board :=
  (chipFor cart).map fun chip =>
    { prgRom := cart.prgRom
      chr := cart.chr
      chrIsRam := cart.chrIsRam
      prgRam := initialRam cart.trainer
      wired := cart.mirroring
      chip }

/-- The byte of the program that an address from `$8000` on shows. -/
def prgIndex (b : Board) (addr : UInt16) : Nat :=
  bankIndex (b.chip.prgBank b.prgRom.size addr) b.chip.prgWindow addr b.prgRom.size

/-- The byte of the patterns that an address shows. -/
def chrIndex (b : Board) (addr : UInt16) : Nat :=
  bankIndex (b.chip.chrBank addr) b.chip.chrWindow addr b.chr.size

/-- The byte of work memory that an address from `$6000` to `$7FFF` shows. -/
def ramIndex (addr : UInt16) : Fin 0x2000 := ⟨addr.toNat % 0x2000, Nat.mod_lt _ (by decide)⟩

/-- The byte at an address of the processor, zero where nothing answers. -/
def prgRead (b : Board) (addr : UInt16) : UInt8 :=
  if addr ≥ 0x8000 then b.prgRom.getD (b.prgIndex addr) 0
  else if addr ≥ 0x6000 && b.chip.ramReadable then b.prgRam[ramIndex addr]
  else 0

/-- A write of the processor: into work memory, or into a register of the chip. -/
def prgWrite (b : Board) (addr : UInt16) (v : UInt8) : Board :=
  if addr ≥ 0x8000 then { b with chip := b.chip.write addr v }
  else if addr ≥ 0x6000 && b.chip.ramWritable then
    { b with prgRam := b.prgRam.set (ramIndex addr) v }
  else b

/-- The byte at an address of the picture unit below `$2000`. -/
def chrRead (b : Board) (addr : UInt16) : UInt8 := b.chr.getD (b.chrIndex addr) 0

/-- The patterns can be written through this board. -/
def chrWritable (b : Board) : Bool :=
  match b.chip with
  | .cnRom .. => false
  | _ => b.chrIsRam

/-- A write of the picture unit below `$2000`. -/
def chrWrite (b : Board) (addr : UInt16) (v : UInt8) : Board :=
  if b.chrWritable then
    let i := b.chrIndex addr
    { b with chr := b.chr.setIfInBounds i v }
  else b

/-- The wiring of the nametables. -/
def mirroring (b : Board) : Mirroring := b.chip.mirroring?.getD b.wired

/-- A line of the picture has been drawn. -/
def clockLine (b : Board) : Board :=
  match b.chip with
  | .mmc3 _ => { b with chip := b.chip.clockLine }
  | _ => b

/-- A cycle of the processor has passed. -/
def clockCycle (b : Board) : Board :=
  match b.chip with
  | .vrc _ => { b with chip := b.chip.clockCycle }
  | _ => b

/-- The board requests an interrupt. -/
def irq (b : Board) : Bool := b.chip.irq

/-- A write to this address goes to a program that nothing can change. -/
def refusesWrite (b : Board) (addr : UInt16) : Bool :=
  addr ≥ 0x8000 && b.chip == .nrom

/-- The board after a reset: bank registers start over, memory stays. -/
def reset (b : Board) : Board := { b with chip := b.chip.reset }

instance : PictureBus Board where
  chrRead := chrRead
  chrWrite := chrWrite
  mirroring := mirroring
  clockLine := clockLine

theorem prgIndex_lt (b : Board) (addr : UInt16) (h : 0 < b.prgRom.size) :
    b.prgIndex addr < b.prgRom.size :=
  bankIndex_lt _ _ _ h

theorem chrIndex_lt (b : Board) (addr : UInt16) (h : 0 < b.chr.size) :
    b.chrIndex addr < b.chr.size :=
  bankIndex_lt _ _ _ h

end Board

end Nes
