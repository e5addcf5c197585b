/-!
# The mixer

The levels of the channels are mixed in two groups, each by a table that is not linear.
-/

namespace Nes.Apu.Mixer

/-- The number of levels that the pulse channels have together. -/
def pulseLevels : Nat := 31

/-- The number of levels that the other channels have together. -/
def tndLevels : Nat := 203

/-- The output of the pulse channels for each sum of their levels. -/
def pulseTable : Array Float32 :=
  Array.ofFn (n := pulseLevels) fun i =>
    if i.val = 0 then 0 else 95.52 / (8128 / Float32.ofNat i.val + 100)

/-- The output of the other channels for each weighted sum of their levels. -/
def tndTable : Array Float32 :=
  Array.ofFn (n := tndLevels) fun i =>
    if i.val = 0 then 0 else 163.67 / (24329 / Float32.ofNat i.val + 100)

/-- The weighted sum of the levels of the triangle, noise and sample channels. -/
def tndIndex (triangle noise dmc : Nat) : Nat := 3 * triangle + 2 * noise + dmc

/-- The output for the levels of all five channels. -/
def mix (pulse1 pulse2 triangle noise dmc : Nat) : Float32 :=
  pulseTable.getD (pulse1 + pulse2) 0 + tndTable.getD (tndIndex triangle noise dmc) 0

end Nes.Apu.Mixer
