import Nes.Controller

/-!
# The remote control

Whoever runs a console keeps a `Remote` to it: with it the console is stopped or reset, released
from a pause of the debugger, made faster or slower, and the buttons of its controllers are pressed.
The console looks at it between two instructions, and at the buttons after each picture.
-/

namespace Nes.Console

/-- Whether the console goes on. -/
inductive RunState
  /-- The console runs. -/
  | running
  /-- The debugger holds the console. -/
  | paused
deriving DecidableEq, Repr, Inhabited

/-- A remote control. -/
structure Remote where
  /-- The console is to stop. -/
  stopped : Bool := false
  /-- The console is to be reset. -/
  resetRequested : Bool := false
  /-- Pictures per second, zero for no limit. -/
  speed : Nat := 0
  /-- The buttons of the first controller. -/
  pad1 : UInt8 := 0
  /-- The buttons of the second controller. -/
  pad2 : UInt8 := 0
  /-- Whether the console goes on. -/
  runState : RunState := .running
deriving DecidableEq, Repr, Inhabited

namespace Remote

/-- The greatest speed. -/
def maxSpeed : Nat := 0xFFFFFFFF

/-- Stops the console. -/
def stop (r : Remote) : Remote := { r with stopped := true }

/-- Releases the console from a pause. -/
def release (r : Remote) : Remote := { r with runState := .running }

/-- Requests a reset, which also ends a pause. -/
def reset (r : Remote) : Remote := { r with resetRequested := true }.release

/-- The console is held. -/
def pause (r : Remote) : Remote := { r with runState := .paused }

/-- Makes the console faster, or slower down to no limit. -/
def adjustSpeed (r : Remote) (delta : Int) : Remote :=
  { r with speed := min (r.speed + delta).toNat maxSpeed }

/-- Presses or releases a button of controller 0 or 1. -/
def setButton (r : Remote) (pad : Nat) (button : Button) (pressed : Bool) : Remote :=
  let change (state : UInt8) : UInt8 :=
    if pressed then state ||| button.mask else state &&& ~~~button.mask
  match pad with
  | 0 => { r with pad1 := change r.pad1 }
  | 1 => { r with pad2 := change r.pad2 }
  | _ => r

end Remote

end Nes.Console
