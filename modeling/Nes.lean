import Nes.Bus.Memory
import Nes.Bus.Recorder
import Nes.Console.Run
import Nes.Main
import Nes.Ppu.PatternTable
import Nes.Proofs.Apu.History
import Nes.Proofs.Console.Handover
import Nes.Proofs.Console.Jam
import Nes.Proofs.Console.Ledger
import Nes.Proofs.Console.Pictures
import Nes.Proofs.Console.Reset
import Nes.Proofs.Console.Trace
import Nes.Proofs.Cpu.Return
import Nes.Proofs.Ppu.History
import Nes.Proofs.Ppu.LineClock
import Nes.Proofs.Ppu.ZeroHit
import Nes.Proofs.Ppu.FrameLength
import Nes.Proofs.Apu.Voices
import Nes.Proofs.Apu.Sequencer
import Nes.Proofs.Board.SerialLoad
import Nes.Proofs.Board.Chips
import Nes.Proofs.Board.VrcRegisters
import Nes.Proofs.Board.Windows
import Nes.Proofs.Board.CycleSchedule
import Nes.Proofs.Board.SerialBanks
import Nes.Proofs.Board.LineSchedule
import Nes.Proofs.Board.Memory
import Nes.Proofs.Ppu.DataPort
import Nes.Proofs.Ppu.Sprites
import Nes.Proofs.System.SpriteCopy
import Nes.Proofs.Apu.SamplePlayer
import Nes.Proofs.Cpu.Combined
import Nes.Proofs.Cpu.LongAddition
import Nes.Proofs.Cpu.StatusMarks
import Nes.Proofs.Cpu.Listing
import Nes.Proofs.Cpu.LinearSweep
import Nes.Proofs.System.Ports
import Nes.Proofs.Apu.Tones
import Nes.Proofs.Apu.Fades
import Nes.Proofs.Ppu.PatternTable
import Nes.Proofs.Apu.ShiftRegister
import Nes.Proofs.System.Player
