import Nes.Bits

/-!
# Length counters

A length counter silences its channel after a number of half frames.  While the channel is disabled
the counter is held at zero.
-/

namespace Nes.Apu

/-- A length counter. -/
structure Length where
  /-- The channel is enabled. -/
  enabled : Bool := false
  /-- The counter stands still. -/
  halt : Bool := false
  /-- The half frames left. -/
  value : Nat := 0
deriving DecidableEq, Repr, Inhabited

namespace Length

/-- The lengths in half frames that a channel's last register selects by its high five bits. -/
def table : Vector Nat 32 := #v[
  10, 254, 20, 2, 40, 4, 80, 6, 160, 8, 60, 10, 14, 12, 26, 14,
  12, 16, 24, 18, 48, 20, 96, 22, 192, 24, 72, 26, 16, 28, 32, 30]

/-- The length that a byte selects. -/
def ofByte (v : UInt8) : Nat := table.get (Bits.high5 v)

/-- Enables or disables the channel. -/
def setEnabled (l : Length) (enabled : Bool) : Length :=
  { l with enabled, value := if enabled then l.value else 0 }

/-- Starts over with the length that a byte selects, if the channel is enabled. -/
def load (l : Length) (v : UInt8) : Length := if l.enabled then { l with value := ofByte v } else l

/-- A half frame has passed. -/
def clock (l : Length) : Length := if l.halt then l else { l with value := l.value - 1 }

/-- The channel may be heard. -/
def active (l : Length) : Bool := 0 < l.value

end Length

end Nes.Apu
