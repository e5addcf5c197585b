/-!
# The frame counter

The frame counter divides time into quarters and halves of frames.  It has a sequence of four steps,
at the end of which it may request an interrupt, and one of five steps, which makes none.
-/

namespace Nes.Apu

/-- The frame counter. -/
structure FrameCounter where
  /-- The cycles since the sequence started. -/
  cycle : Nat := 0
  /-- The sequence has five steps. -/
  fiveStep : Bool := false
  /-- No interrupts are requested. -/
  inhibit : Bool := false
  /-- An interrupt is requested. -/
  irq : Bool := false
deriving DecidableEq, Repr, Inhabited

namespace FrameCounter

/-- The cycles of the sequence. -/
def period (fiveStep : Bool) : Nat := if fiveStep then 37282 else 29830

/-- The cycle of the last step. -/
def lastStep (fiveStep : Bool) : Nat := period fiveStep - 1

/-- A half frame ends at a cycle of the sequence. -/
def endsHalf (fiveStep : Bool) (cycle : Nat) : Bool :=
  cycle == 14913 || cycle == lastStep fiveStep

/-- A quarter frame ends at a cycle of the sequence. -/
def endsQuarter (fiveStep : Bool) (cycle : Nat) : Bool :=
  cycle == 7457 || cycle == 22371 || endsHalf fiveStep cycle

/-- Selects a sequence and starts it. -/
def write (f : FrameCounter) (v : UInt8) : FrameCounter :=
  let inhibit := v &&& 0x40 != 0
  { cycle := 0, fiveStep := v &&& 0x80 != 0, inhibit, irq := f.irq && !inhibit }

/-- The counter after a cycle. -/
def tick (f : FrameCounter) : FrameCounter :=
  let cycle := f.cycle + 1
  let raises := !f.fiveStep && cycle == lastStep false && !f.inhibit
  { f with
    irq := f.irq || raises
    cycle := if period f.fiveStep ≤ cycle then 0 else cycle }

end FrameCounter

end Nes.Apu
