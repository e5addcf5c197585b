import Nes.Proofs.System.Deeds
import Mathlib.Tactic.SplitIfs

/-!
# How often a player is stopped

A player counts how often it was told that there is no more sound.  Writes leave it alone
(`Apu.player_write`), a cycle gives it a sample at most (`Apu.stops_tick`), and a reset tells it to
drop what it has not played.  So nothing that happens to a system changes that count, nor whether
there is a player at all (`System.stops_replay`).
-/

namespace Nes

namespace Apu

theorem player_write (a : Apu) (addr : UInt16) (v : UInt8) : (a.write addr v).player = a.player := by
  have hframe : (a.writeFrame v).player = a.player := by
    unfold writeFrame
    dsimp only
    split <;> rfl
  unfold write
  dsimp only
  split_ifs
  all_goals first | rfl | exact hframe

theorem player_tickFrame (a : Apu) : a.tickFrame.player = a.player := by
  unfold tickFrame
  dsimp only
  split_ifs <;> rfl

theorem player_tickChannels (a : Apu) : a.tickChannels.player = a.player := by
  unfold tickChannels
  dsimp only
  split <;> rfl

/-- A cycle may give the player a sample. -/
theorem stops_tick (a : Apu) : a.tick.player.map Player.stops = a.player.map Player.stops := by
  have hsample (b : Apu) : b.tickSample.player.map Player.stops = b.player.map Player.stops := by
    unfold tickSample
    dsimp only
    split
    · exact Option.map_map ..
    · rfl
  rw [tick, hsample, player_tickChannels, player_tickFrame]

theorem stops_reset (a : Apu) : a.reset.player.map Player.stops = a.player.map Player.stops :=
  Option.map_map ..

end Apu

theorem System.player_read (s : System) (addr : UInt16) :
    (s.read addr).2.apu.player = s.apu.player := by
  unfold System.read
  split_ifs <;> rfl

theorem System.player_write (s : System) {addr : UInt16} (hcopy : addr ≠ 0x4014) (v : UInt8) :
    (s.write addr v).apu.player = s.apu.player := by
  have hne : (addr == 0x4014) = false := beq_eq_false_iff_ne.2 hcopy
  unfold System.write
  rw [hne, if_neg Bool.false_ne_true]
  split_ifs
  all_goals first | rfl | exact s.apu.player_write addr v

theorem System.player_feedSamples (s : System) : s.feedSamples.apu.player = s.apu.player := by
  unfold System.feedSamples
  split <;> rfl

theorem Deed.stops_act (s : System) (d : Deed) :
    (d.act s).apu.player.map Apu.Player.stops = s.apu.player.map Apu.Player.stops := by
  cases d with
  | read addr => exact congrArg _ (s.player_read addr)
  | write addr hne v => exact congrArg _ (s.player_write hne v)
  | sound => exact s.apu.stops_tick
  | fetch => exact congrArg _ s.player_feedSamples
  | reset => exact s.apu.stops_reset
  | _ => rfl

/-- Nothing that happens to a system stops its player. -/
theorem System.stops_replay (s : System) (ds : List Deed) :
    (s.replay ds).apu.player.map Apu.Player.stops = s.apu.player.map Apu.Player.stops :=
  replay_preserves (P := fun s' => s'.apu.player.map _ = s.apu.player.map _)
    (fun s' d _ hs' => (d.stops_act s').trans hs') rfl

end Nes
