import Nes.Console.Basic

/-!
# Running the console

`Console.step` takes the console from one boundary between instructions to the next, and
`Console.run` goes on until the console is stopped or fails.  Both talk to a `Host`, which receives
pictures and errors and may bring a debugger; the host has a state of its own, of type `η`, and
steers the console through its remote control.

`run` is given a number of steps to take at most, and answers `none` if that was not enough.
-/

namespace Nes.Console

/-- The failure of a callback. -/
inductive Failure
  /-- A failure that says what went wrong. -/
  | text (message : String)
  /-- A failure that does not. -/
  | unnamed
deriving DecidableEq, Repr, Inhabited

/-- What went wrong, in words. -/
def Failure.message : Failure → String
  | text message => message
  | unnamed => "unknown panic"

/-- A debugger. -/
structure Debugger (η : Type) where
  /-- Looks at the console before an instruction; `true` asks for a pause. -/
  consult : Console → η → Bool × Remote × η
  /-- What happens while the console is held. -/
  hold : Console → η → Remote × η

/-- Who runs a console. -/
structure Host (η : Type) where
  /-- Receives a complete picture. -/
  onFrame : Picture → Remote → η → Except Failure Unit × Remote × η := fun _ r s => (.ok (), r, s)
  /-- Receives the error that ended a run. -/
  onError : Error → η → η := fun _ s => s
  /-- The debugger, if there is one. -/
  debugger : Option (Debugger η) := none

/-- A host that ignores everything. -/
def Host.silent : Host Unit := {}

variable {η : Type}

/-- Asks the debugger, holds the console if it says so, and tells whether to go on. -/
def consult (h : Host η) (c : Console) (s : η) : Bool × Console × η :=
  match h.debugger with
  | none => (true, c, s)
  | some d =>
    let (pauses, remote, s) := d.consult c s
    let c := { c with remote }
    if pauses then
      let c := { c with pauseCycles := c.cycles, remote := c.remote.pause }
      let (remote, s) := d.hold c s
      (!remote.stopped, { c with remote := remote.release }, s)
    else (!c.remote.stopped, c, s)

/-- Hands a complete picture to the host, and then the buttons to the controllers. -/
def deliver (h : Host η) (c : Console) (s : η) : Except Error Unit × Console × η :=
  let (ready, c) := c.withSystem System.takeFrame
  if ready then
    let (result, remote, s) := h.onFrame c.machine.bus.ppu.front c.remote s
    let c := { c with remote }
    match result with
    | .ok () => (.ok (), c.applyButtons, s)
    | .error e => (.error (.callbackFailed e.message), c, s)
  else (.ok (), c, s)

/-- Lets time pass after an instruction or an interrupt. -/
def complete (h : Host η) (c : Console) (used : Nat) (s : η) : Except Error Nat × Console × η :=
  let (cycles, c) := c.elapse used
  let (result, c, s) := c.deliver h s
  (result.map fun _ => cycles, c, s)

/-- A reset if one was requested, and then an interrupt or an instruction.  Tells the cycles that
passed. -/
def step (h : Host η) (c : Console) (s : η) : Except Error Nat × Console × η :=
  let c := c.applyReset
  let (used, c) := c.dispatch
  if used ≠ 0 then c.complete h used s
  else
    let (goes, c, s) := c.consult h s
    if !goes then (.ok 0, c, s)
    else
      let (result, c) := c.instruction
      match result with
      | .error j => (.error (.jam j), c, s)
      | .ok used => c.complete h used s

/-- Steps until the console is stopped or fails. -/
def loop (h : Host η) : (fuel : Nat) → Console → η → Option (Except Error Unit) × Console × η
  | 0, c, s => (if c.remote.stopped then some (.ok ()) else none, c, s)
  | fuel + 1, c, s =>
    if c.remote.stopped then (some (.ok ()), c, s)
    else
      let (result, c, s) := c.step h s
      match result with
      | .error e => (some (.error e), c, s)
      | .ok _ => loop h fuel c s

/-- Runs the console until it is stopped or fails.  A failure is reported to the host and stops the
console; in either case the player is told that there is no more sound. -/
def run (h : Host η) (fuel : Nat) (c : Console) (s : η) :
    Option (Except Error Unit) × Console × η :=
  let (result, c, s) := loop h fuel c s
  let (c, s) := match result with
    | some (.error e) => ({ c with remote := c.remote.stop }, h.onError e s)
    | _ => (c, s)
  match result with
  | none => (none, c, s)
  | some r => (some r, (c.withSystem fun b => ((), { b with apu := b.apu.stop })).2, s)

end Nes.Console
