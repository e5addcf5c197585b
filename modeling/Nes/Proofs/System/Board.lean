import Nes.Proofs.Board.History
import Nes.Proofs.System.Frame

/-!
# What a system does to its board

A deed writes to the board, clocks it, resets it or leaves it alone, so that the board of a system
has a history of `Board.Op`s (`System.board_replay`).
-/

namespace Nes

theorem Ppu.board_writeRegister (p : Ppu) (b : Board) (number : UInt16) (v : UInt8) :
    ∃ ops, (p.writeRegister b number v).2 = b.run ops := by
  unfold Ppu.writeRegister
  dsimp only
  split
  all_goals try exact ⟨[], rfl⟩
  unfold Ppu.writeMemory
  dsimp only
  split
  · exact ⟨[.chrWrite _ v], rfl⟩
  · split <;> exact ⟨[], rfl⟩

theorem Ppu.board_tickWith (p : Ppu) (b : Board) : ∃ ops, (p.tickWith b).2 = b.run ops := by
  unfold Ppu.tickWith
  dsimp only
  split
  · exact ⟨[.clockLine], rfl⟩
  · exact ⟨[], rfl⟩

theorem System.board_write (s : System) {addr : UInt16} (hcopy : addr ≠ 0x4014) (v : UInt8) :
    ∃ ops, (s.write addr v).board = s.board.run ops := by
  have hne : (addr == 0x4014) = false := beq_eq_false_iff_ne.2 hcopy
  unfold System.write
  rw [hne, if_neg Bool.false_ne_true]
  split_ifs
  · exact ⟨[], rfl⟩
  · exact s.ppu.board_writeRegister s.board addr v
  · exact ⟨[], rfl⟩
  · exact ⟨[], rfl⟩
  · exact ⟨[], rfl⟩
  · exact ⟨[.prgWrite addr v], rfl⟩
  · exact ⟨[.prgWrite addr v], rfl⟩

theorem Deed.board_act (s : System) (d : Deed) : ∃ ops, (d.act s).board = s.board.run ops := by
  cases d with
  | read addr =>
    obtain ⟨_, _, _, _, _, heq, _⟩ := s.read_cases addr
    have hboard : (s.read addr).2.board = s.board := by rw [heq]
    exact ⟨[], hboard⟩
  | write addr hne v => exact s.board_write hne v
  | dot => exact s.ppu.board_tickWith s.board
  | fetch =>
    have hboard : s.feedSamples.board = s.board := by
      rcases s.feedSamples_cases with ⟨_, heq⟩ | ⟨_, v, heq⟩ <;> rw [heq]
    exact ⟨[], hboard⟩
  | clock => exact ⟨[.clockCycle], rfl⟩
  | reset => exact ⟨[.reset], rfl⟩
  | _ => exact ⟨[], rfl⟩

theorem System.board_replay (s : System) (ds : List Deed) :
    ∃ ops, (s.replay ds).board = s.board.run ops := by
  refine replay_preserves (P := fun s' => ∃ ops, s'.board = s.board.run ops) ?_ ⟨[], rfl⟩
  rintro s' d - ⟨ops, hops⟩
  obtain ⟨ops', hops'⟩ := d.board_act s'
  exact ⟨ops ++ ops', by rw [hops', hops, Board.run_append]⟩

end Nes
