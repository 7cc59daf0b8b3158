import Nes.Bus.Basic
import Nes.Bus.Flat
import Nes.Cartridge.Basic
import Nes.Cartridge.Header
import Nes.Cartridge.Image
import Nes.Cartridge.Mapper
import Nes.Checksum.Crc32
import Nes.CommandLine.Basic
import Nes.CommandLine.Demo
import Nes.CommandLine.Directory
import Nes.Console.AddressSpace
import Nes.Console.Basic
import Nes.Console.Run
import Nes.Console.WorkRam
import Nes.Cpu.Alu
import Nes.Cpu.Basic
import Nes.Cpu.Effect
import Nes.Cpu.Flag
import Nes.Cpu.Instruction
import Nes.Cpu.OpcodeMatrix
import Nes.Cpu.Operand
import Nes.Cpu.Registers
import Nes.Cpu.Stack
import Nes.Event
import Nes.Main
import Nes.Ppu.Access
import Nes.Ppu.Basic
import Nes.Ppu.Beam
import Nes.Ppu.Colour
import Nes.Ppu.Register
import Nes.Ppu.Switches
import Nes.Ppu.Tile
import Nes.Ppu.VideoMemory
import Nes.Proofs.Bits
import Nes.Proofs.Bus.Path
import Nes.Proofs.Bus.Ram
import Nes.Proofs.Cartridge.Format
import Nes.Proofs.Cartridge.Identity
import Nes.Proofs.Cartridge.Loading
import Nes.Proofs.Checked.Basic
import Nes.Proofs.Checked.CommandLine
import Nes.Proofs.Checked.Image
import Nes.Proofs.Checked.Machine
import Nes.Proofs.Checked.Picture
import Nes.Proofs.Checked.Processor
import Nes.Proofs.Checked.Program
import Nes.Proofs.Checked.Requests
import Nes.Proofs.Checked.Tile
import Nes.Proofs.Checksum.Burst
import Nes.Proofs.CommandLine.Directory
import Nes.Proofs.CommandLine.Run
import Nes.Proofs.Console.Access
import Nes.Proofs.Console.BlankProgram
import Nes.Proofs.Console.Clock
import Nes.Proofs.Console.DoubledBank
import Nes.Proofs.Console.EntryAndReturn
import Nes.Proofs.Console.FlatSimulation
import Nes.Proofs.Console.FrameStep
import Nes.Proofs.Console.Frames
import Nes.Proofs.Console.Granularity
import Nes.Proofs.Console.Halt
import Nes.Proofs.Console.InstructionStep
import Nes.Proofs.Console.Mirrors
import Nes.Proofs.Console.Operation
import Nes.Proofs.Console.Peek
import Nes.Proofs.Console.PictureHistory
import Nes.Proofs.Console.PictureMemory
import Nes.Proofs.Console.ProgramLoading
import Nes.Proofs.Console.Reachable
import Nes.Proofs.Console.ReadEffect
import Nes.Proofs.Console.Restart
import Nes.Proofs.Console.RunLength
import Nes.Proofs.Console.Simulation
import Nes.Proofs.Console.StackSession
import Nes.Proofs.Console.Synchrony
import Nes.Proofs.Console.Twins
import Nes.Proofs.Console.VblankNmi
import Nes.Proofs.Cpu.BusTrace
import Nes.Proofs.Cpu.Command
import Nes.Proofs.Cpu.CycleCount
import Nes.Proofs.Cpu.EffectPath
import Nes.Proofs.Cpu.EffectiveAddress
import Nes.Proofs.Cpu.Entry
import Nes.Proofs.Cpu.Halt
import Nes.Proofs.Cpu.IrqLatch
import Nes.Proofs.Cpu.Ledger
import Nes.Proofs.Cpu.LongShift
import Nes.Proofs.Cpu.LongSum
import Nes.Proofs.Cpu.OperandPath
import Nes.Proofs.Cpu.RegisterFrame
import Nes.Proofs.Cpu.RequestTime
import Nes.Proofs.Cpu.ResultFlags
import Nes.Proofs.Cpu.Routine
import Nes.Proofs.Cpu.StackPath
import Nes.Proofs.Cpu.Starting
import Nes.Proofs.Cpu.StatusPush
import Nes.Proofs.Cpu.Tick
import Nes.Proofs.Cpu.Timetable
import Nes.Proofs.Cpu.Timing
import Nes.Proofs.Ppu.DataStream
import Nes.Proofs.Ppu.DotOrder
import Nes.Proofs.Ppu.PatternTable
import Nes.Proofs.Ppu.SpriteStream
import Nes.Proofs.Ppu.Video
import Nes.Proofs.Ppu.WriteToggle
import Nes.Proofs.Stores
import Nes.Proofs.Text.Count
import Nes.Text.Count
import Nes.Text.Glyph
import Nes.Text.Numeral
import Nes.Text.Quoted
import Nes.Text.Record
import Nes.Text.Report
