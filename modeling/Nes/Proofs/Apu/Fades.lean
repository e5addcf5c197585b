import Nes.Apu.Envelope
import Nes.Proofs.Countdown

/-!
# Fades

An envelope that is started over goes to 15 with its next clock, and from then on its divider runs
down like any other timer: with every round the volume falls by one, and at zero it stays or goes
back to 15.  So the state after any number of clocks has a closed form (`Envelope.iterate_clock`),
whatever the state before.

Whether the volume is constant concerns what is heard alone; the fall goes on underneath
(`Envelope.iterate_clock_constant`).  `Envelope.fade_exact` puts this together.
-/

namespace Nes.Apu.Envelope

open Countdown

/-- The volume after some steps of a fall from 15. -/
def level (looping : Bool) (steps : Nat) : Nat := if looping then 15 - steps % 16 else 15 - steps

variable {e : Envelope}

/-! ### The fall -/

/-- A step of the fall. -/
theorem fallen_level {steps : Nat} (h : e.decay = level e.looping steps) :
    e.fallen = level e.looping (steps + 1) := by
  rw [fallen, h]
  cases e.looping with
  | true =>
    change (if 0 < 15 - steps % 16 then 15 - steps % 16 - 1 else 15) = 15 - (steps + 1) % 16
    split <;> omega
  | false =>
    change (if 0 < 15 - steps then 15 - steps - 1 else 0) = 15 - (steps + 1)
    split <;> omega

/-- The clock after a start. -/
theorem clock_of_start (h : e.start = true) :
    e.clock = { e with start := false, divider := e.volume, decay := 15 } := if_pos h

/-- The other clocks: the divider ticks, and with the end of a round the volume falls. -/
theorem clock_of_running (h : e.start = false) :
    e.clock =
      { e with
        divider := Countdown.tick e.volume e.divider
        decay := if e.divider = 0 then e.fallen else e.decay } := by
  unfold clock Countdown.tick
  rw [h, if_neg Bool.false_ne_true]
  by_cases hdivider : e.divider = 0
  · rw [if_neg (Nat.not_lt.2 (Nat.le_of_eq hdivider)), if_pos hdivider, if_pos hdivider]
  · rw [if_pos (Nat.pos_of_ne_zero hdivider), if_neg hdivider, if_neg hdivider]

/-- **The closed form.**  Whatever the divider and the volume were before the start. -/
theorem iterate_clock (h : e.start = true) (n : Nat) :
    clock^[n + 1] e =
      { e with
        start := false
        divider := left e.volume e.volume n
        decay := level e.looping (rounds e.volume e.volume n) } := by
  induction n with
  | zero =>
    rw [left_zero, rounds_zero]
    exact (clock_of_start h).trans (by cases e.looping <;> rfl)
  | succ n ih =>
    rw [Function.iterate_succ_apply', ih, clock_of_running rfl, left_succ, rounds_succ]
    dsimp only [Countdown.tick]
    split_ifs with hround
    · rw [fallen_level rfl]
    · rw [Nat.add_zero]

/-! ### Writes in between -/

/-- A constant volume does not concern the fall. -/
theorem clock_constant (e : Envelope) (constant : Bool) :
    clock { e with constant } = { e.clock with constant } := by
  simp only [clock, fallen]
  split_ifs <;> rfl

theorem iterate_clock_constant (e : Envelope) (constant : Bool) (n : Nat) :
    clock^[n] { e with constant } = { clock^[n] e with constant } := by
  induction n with
  | zero => rfl
  | succ n ih =>
    rw [Function.iterate_succ_apply', ih, clock_constant, Function.iterate_succ_apply']

/-- Clocks leave alone what writes set. -/
theorem settings_clock (e : Envelope) :
    e.clock.looping = e.looping ∧ e.clock.volume = e.volume ∧ e.clock.constant = e.constant := by
  unfold clock
  split_ifs <;> exact ⟨rfl, rfl, rfl⟩

theorem settings_iterate (e : Envelope) (n : Nat) :
    (clock^[n] e).looping = e.looping ∧ (clock^[n] e).volume = e.volume ∧
      (clock^[n] e).constant = e.constant := by
  induction n with
  | zero => exact ⟨rfl, rfl, rfl⟩
  | succ n ih =>
    obtain ⟨hlooping, hvolume, hconstant⟩ := settings_clock (clock^[n] e)
    rw [Function.iterate_succ_apply']
    exact ⟨hlooping.trans ih.1, hvolume.trans ih.2.1, hconstant.trans ih.2.2⟩

/-- A write that sets the volume and the mode of the fall as they are. -/
theorem write_of_settings {v : UInt8} (hvolume : v.toNat % 16 = e.volume)
    (hlooping : (v &&& 0x20 != 0) = e.looping) :
    e.write v = { e with constant := v &&& 0x10 != 0 } := by
  rw [write, hvolume, hlooping]

/-- What comes before a start does not matter. -/
theorem iterate_clock_congr {e' : Envelope} (h : e.start = true) (h' : e'.start = true)
    (hlooping : e'.looping = e.looping) (hvolume : e'.volume = e.volume)
    (hconstant : e'.constant = e.constant) {n : Nat} (hn : 1 ≤ n) :
    clock^[n] e' = clock^[n] e := by
  obtain ⟨n, rfl⟩ := Nat.exists_eq_add_of_le' hn
  rw [iterate_clock h, iterate_clock h', hlooping, hvolume, hconstant]

/-- **Fades.**  After a write of a byte to any envelope, and a start, at the `n`-th clock:

* the volume underneath has fallen from 15 by one with every `V + 1` clocks after the first, where
  `V` is the number in the byte's low four bits; after zero comes 15 again if bit 5 is set, and zero
  if it is not; and what is heard is this volume, or `V` if bit 4 is set;
* writes of the same number and mode that set or clear bit 4 on the way change nothing else;
* another start, after any number of clocks, begins the same sequence with the next clock, and until
  then changes nothing that is heard. -/
theorem fade_exact (e : Envelope) (v : UInt8) :
    let V := v.toNat % 16
    let looping := v &&& 0x20 != 0
    let started := (e.write v).restart
    (∀ n, 1 ≤ n →
      let m := (n - 1) / (V + 1)
      let falling := if looping then 15 - m % 16 else 15 - m
      (clock^[n] started).decay = falling ∧
        (clock^[n] started).output = if v &&& 0x10 != 0 then V else falling) ∧
    (∀ (j k : Nat) (w : UInt8), w.toNat % 16 = V → (w &&& 0x20 != 0) = looping →
      clock^[k] ((clock^[j] started).write w) =
        { clock^[j + k] started with constant := w &&& 0x10 != 0 }) ∧
    ∀ k n, 1 ≤ n →
      (clock^[k] started).restart.output = (clock^[k] started).output ∧
        clock^[n] (clock^[k] started).restart = clock^[n] started := by
  intro V looping started
  refine ⟨fun n hn => ?_, fun j k w hvolume hlooping => ?_, fun k n hn => ⟨rfl, ?_⟩⟩
  · intro m falling
    obtain ⟨n, rfl⟩ := Nat.exists_eq_add_of_le' hn
    rw [iterate_clock rfl, output]
    dsimp only
    rw [rounds_self]
    exact ⟨rfl, rfl⟩
  · obtain ⟨hlooping', hvolume', -⟩ := settings_iterate started j
    rw [write_of_settings (hvolume.trans hvolume'.symm) (hlooping.trans hlooping'.symm),
      iterate_clock_constant, Nat.add_comm j k, Function.iterate_add_apply]
  · obtain ⟨hlooping, hvolume, hconstant⟩ := settings_iterate started k
    refine iterate_clock_congr (e := started) rfl rfl ?_ ?_ ?_ hn
    · exact hlooping
    · exact hvolume
    · exact hconstant

/-- A fade that comes around after sixteen steps of two clocks, and starts over on the way. -/
theorem fade_exact_around :
    let started := (({ divider := 7, decay := 3 } : Envelope).write 0x21).restart
    (clock^[32] started).output = 0 ∧ (clock^[33] started).output = 15 ∧
      (clock^[5] started).output = 13 ∧
      clock^[1] (clock^[5] started).restart = clock^[1] started := by
  intro started
  obtain ⟨hfall, -, hagain⟩ := fade_exact { divider := 7, decay := 3 } 0x21
  exact ⟨(hfall 32 (by decide)).2, (hfall 33 (by decide)).2, (hfall 5 (by decide)).2,
    (hagain 5 1 (by decide)).2⟩

end Nes.Apu.Envelope
