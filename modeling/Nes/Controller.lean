/-!
# Controllers

A controller copies the state of its eight buttons into a shift register while its strobe is high,
and hands the copy out one bit for each read once the strobe has fallen.  After the eighth bit it
hands out ones.
-/

namespace Nes

/-- The buttons, in the order in which they are handed out. -/
inductive Button
  | a | b | select | start | up | down | left | right
deriving DecidableEq, Repr, Inhabited

namespace Button

/-- All buttons in order. -/
def all : List Button := [a, b, select, start, up, down, left, right]

/-- The number of the button's bit. -/
def index : Button → Nat
  | a => 0
  | b => 1
  | select => 2
  | start => 3
  | up => 4
  | down => 5
  | left => 6
  | right => 7

/-- The button's bit. -/
def mask (button : Button) : UInt8 := 1 <<< UInt8.ofNat button.index

end Button

/-- A controller. -/
structure Controller where
  /-- The buttons held down now, a bit each. -/
  state : UInt8 := 0
  /-- The copy that is handed out, its next bit in bit 0. -/
  shift : UInt8 := 0
  /-- The copy follows the buttons. -/
  strobe : Bool := false
deriving DecidableEq, Repr, Inhabited

namespace Controller

/-- What a read answers in the bits that no button drives. -/
def openBus : UInt8 := 0x40

/-- Holds down exactly the given buttons. -/
def setState (c : Controller) (state : UInt8) : Controller :=
  { c with state, shift := if c.strobe then state else c.shift }

/-- Presses or releases one button. -/
def setButton (c : Controller) (button : Button) (pressed : Bool) : Controller :=
  c.setState (if pressed then c.state ||| button.mask else c.state &&& ~~~button.mask)

/-- Sets the strobe to bit 0 of a byte. -/
def write (c : Controller) (v : UInt8) : Controller :=
  let strobe := v &&& 1 != 0
  { c with strobe, shift := if strobe then c.state else c.shift }

/-- The next bit of the copy, or the first button while the strobe is high. -/
def read (c : Controller) : UInt8 × Controller :=
  if c.strobe then (c.state &&& 1 ||| openBus, c)
  else (c.shift &&& 1 ||| openBus, { c with shift := c.shift >>> 1 ||| 0x80 })

end Controller

end Nes
