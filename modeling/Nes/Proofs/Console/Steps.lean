import Nes.Console.Run

/-!
# Many steps

`Console.after h c s n` is the console with its host after `n` steps, and `Goes h c s n` says that
each of them starts from a console that is not stopped, and succeeds.  A run takes as many steps as
it can (`loop_of_goes`).  When one fails, the run ends with that error, which is handed to the host
once, the console is stopped and its player is told so once (`run_of_error`); the console takes no
step in a later run (`run_of_stopped`).
-/

namespace Nes.Console

variable {η : Type} (h : Host η)

/-- The console and its host after so many steps. -/
def after (c : Console) (s : η) : Nat → Console × η
  | 0 => (c, s)
  | n + 1 => after (c.step h s).2.1 (c.step h s).2.2 n

/-- So many steps succeed, each from a console that is not stopped. -/
def Goes (c : Console) (s : η) : Nat → Prop
  | 0 => True
  | n + 1 => c.remote.stopped = false ∧ (∃ cycles, (c.step h s).1 = .ok cycles) ∧
      Goes (c.step h s).2.1 (c.step h s).2.2 n

variable {h} {c : Console} {s : η}

/-- Where a step leads back to its start, all further ones do. -/
theorem after_of_fixed {result : Except Error Nat} (hstep : c.step h s = (result, c, s)) (n : Nat) :
    c.after h s n = (c, s) := by
  induction n with
  | zero => rfl
  | succ n ih => rw [after, hstep, ih]

/-! ### A run -/

theorem loop_of_stopped (hstopped : c.remote.stopped = true) (fuel : Nat) :
    c.loop h fuel s = (some (.ok ()), c, s) := by
  cases fuel with
  | zero => rw [loop, if_pos hstopped]
  | succ fuel => rw [loop, if_pos hstopped]

theorem loop_of_ok {cycles : Nat} (hstopped : c.remote.stopped = false)
    (hok : (c.step h s).1 = .ok cycles) (fuel : Nat) :
    c.loop h (fuel + 1) s = (c.step h s).2.1.loop h fuel (c.step h s).2.2 := by
  rw [loop, hstopped, if_neg Bool.false_ne_true]
  generalize c.step h s = r at hok
  obtain ⟨_, c', s'⟩ := r
  cases hok
  rfl

theorem loop_of_error {e : Error} (hstopped : c.remote.stopped = false)
    (herror : (c.step h s).1 = .error e) (fuel : Nat) :
    c.loop h (fuel + 1) s = (some (.error e), (c.step h s).2) := by
  rw [loop, hstopped, if_neg Bool.false_ne_true]
  generalize c.step h s = r at herror
  obtain ⟨_, c', s'⟩ := r
  cases herror
  rfl

/-- The loop takes the steps that succeed, and then the others. -/
theorem loop_of_goes {n : Nat} (hgoes : c.Goes h s n) (fuel : Nat) :
    c.loop h (n + fuel) s = (c.after h s n).1.loop h fuel (c.after h s n).2 := by
  induction n generalizing c s with
  | zero => rw [Nat.zero_add, after]
  | succ n ih =>
    obtain ⟨hstopped, ⟨cycles, hok⟩, hgoes⟩ := hgoes
    rw [Nat.succ_add, loop_of_ok hstopped hok, ih hgoes, after]

/-- A stopped console takes no step: a run only tells the player once more. -/
theorem run_of_stopped (hstopped : c.remote.stopped = true) (fuel : Nat) :
    c.run h fuel s = (some (.ok ()), c.stop, s) := by
  have hremote : c.remote.stop = c.remote := by
    rw [Remote.stop, ← hstopped]
  rw [run, loop_of_stopped hstopped, stop, hremote]

/-- **A failure ends a run.**  After steps that succeed, the first one that fails ends a run with
its error; the host has received the error once, and the console is stopped. -/
theorem run_of_error {n : Nat} {e : Error} (hgoes : c.Goes h s n)
    (hstopped : (c.after h s n).1.remote.stopped = false)
    (herror : ((c.after h s n).1.step h (c.after h s n).2).1 = .error e) {fuel : Nat}
    (hfuel : n < fuel) :
    c.run h fuel s =
      (some (.error e), ((c.after h s n).1.step h (c.after h s n).2).2.1.stop,
        h.onError e ((c.after h s n).1.step h (c.after h s n).2).2.2) := by
  obtain ⟨fuel, rfl⟩ : ∃ k, fuel = n + (k + 1) := ⟨fuel - n - 1, by omega⟩
  rw [run, loop_of_goes hgoes, loop_of_error hstopped herror]
  rfl

/-- Stopping tells the player once, and changes nothing else but the remote control. -/
theorem stop_eq :
    c.stop = { c with
      machine := ⟨c.cpu, { c.system with apu := c.system.apu.stop }⟩
      remote := c.remote.stop } := rfl

/-! ### Errors are not handed out by steps -/

theorem deliver_onError (f : Error → η → η) :
    c.deliver { h with onError := f } s = c.deliver h s := by
  unfold deliver
  rfl

theorem complete_onError (f : Error → η → η) (used : Nat) :
    c.complete { h with onError := f } used s = c.complete h used s := by
  unfold complete
  simp only [deliver_onError]

theorem consult_onError (f : Error → η → η) :
    c.consult { h with onError := f } s = c.consult h s := by
  unfold consult
  rfl

/-- A step hands no error to the host. -/
theorem step_onError (f : Error → η → η) : c.step { h with onError := f } s = c.step h s := by
  unfold step
  simp only [consult_onError, complete_onError]

theorem after_onError (f : Error → η → η) (n : Nat) :
    c.after { h with onError := f } s n = c.after h s n := by
  induction n generalizing c s with
  | zero => rfl
  | succ n ih => rw [after, after, step_onError, ih]

theorem Goes.onError {n : Nat} (hgoes : c.Goes h s n) (f : Error → η → η) :
    c.Goes { h with onError := f } s n := by
  induction n generalizing c s with
  | zero => trivial
  | succ n ih =>
    obtain ⟨hstopped, hok, hgoes⟩ := hgoes
    rw [Goes, step_onError]
    exact ⟨hstopped, hok, ih hgoes⟩

/-- Whatever a host does with errors, it is given the error that ends a run, and no other. -/
theorem run_reports {n : Nat} {e : Error} {c' : Console} {s' : η} (hgoes : c.Goes h s n)
    (hstopped : (c.after h s n).1.remote.stopped = false)
    (hfails : (c.after h s n).1.step h (c.after h s n).2 = (.error e, c', s')) {fuel : Nat}
    (hfuel : n < fuel) (onError : Error → η → η) :
    c.run { h with onError } fuel s = (some (.error e), c'.stop, onError e s') := by
  have hend := run_of_error (hgoes.onError onError) (e := e)
    (by rw [after_onError]; exact hstopped) (by rw [after_onError, step_onError, hfails]) hfuel
  rw [after_onError, step_onError, hfails] at hend
  exact hend

end Nes.Console
