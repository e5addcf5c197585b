/-!
# Envelopes

An envelope lets the volume of a channel fall from 15 to 0 in steps of a chosen number of quarter
frames, once or again and again; or it keeps the volume constant.
-/

namespace Nes.Apu

/-- An envelope. -/
structure Envelope where
  /-- The next clock starts over. -/
  start : Bool := false
  /-- The quarter frames left of the step. -/
  divider : Nat := 0
  /-- The falling volume. -/
  decay : Nat := 0
  /-- The fall starts over at the end. -/
  looping : Bool := false
  /-- The volume is constant. -/
  constant : Bool := false
  /-- The constant volume, or one less than the quarter frames of a step. -/
  volume : Nat := 0
deriving DecidableEq, Repr, Inhabited

namespace Envelope

/-- Sets the mode and the volume from the low six bits of a byte. -/
def write (e : Envelope) (v : UInt8) : Envelope :=
  { e with
    looping := v &&& 0x20 != 0
    constant := v &&& 0x10 != 0
    volume := v.toNat % 16 }

/-- The next clock starts over. -/
def restart (e : Envelope) : Envelope := { e with start := true }

/-- The volume after a step of the fall. -/
def fallen (e : Envelope) : Nat :=
  if 0 < e.decay then e.decay - 1 else if e.looping then 15 else 0

/-- A quarter frame has passed. -/
def clock (e : Envelope) : Envelope :=
  if e.start then { e with start := false, decay := 15, divider := e.volume }
  else if 0 < e.divider then { e with divider := e.divider - 1 }
  else { e with divider := e.volume, decay := e.fallen }

/-- The volume. -/
def output (e : Envelope) : Nat := if e.constant then e.volume else e.decay

end Envelope

end Nes.Apu
