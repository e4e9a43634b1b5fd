import Chip8.Command
import Chip8.Logger
import Chip8.Statistics
import Chip8.Proofs.History
import Chip8.Proofs.Stepping
import Chip8.Proofs.Transparency
import Chip8.Proofs.Pausing
import Chip8.Proofs.Effects
import Chip8.Proofs.OpenCalls
import Chip8.Proofs.AddressSpace
import Chip8.Proofs.Encoding
import Chip8.Proofs.WordSteps
import Chip8.Proofs.StepFaults
import Chip8.Proofs.InstructionFrame
import Chip8.Proofs.DisassemblyViews
import Chip8.Proofs.Numerals
import Chip8.Proofs.Reassembly
import Chip8.Proofs.Mnemonics
import Chip8.Proofs.StaticDisassembly
import Chip8.Proofs.ControlFlow
import Chip8.Proofs.HostEvents
import Chip8.Proofs.Lockstep
import Chip8.Proofs.Dialects
import Chip8.Proofs.DeadState
import Chip8.Proofs.Sprites
import Chip8.Proofs.Drawing
import Chip8.Proofs.DeclarationOrder
import Chip8.Proofs.PartialOpcodes
import Chip8.Proofs.Transfers
import Chip8.Proofs.SplitBatches
import Chip8.Proofs.RandomStream
import Chip8.Proofs.Waiting
import Chip8.Proofs.Arithmetic
import Chip8.Proofs.Unbounded
import Chip8.Proofs.Ranges
import Chip8.Proofs.Timers
import Chip8.Proofs.Keypad
import Chip8.Proofs.Tallies
import Chip8.Proofs.StepStatistics
import Chip8.Proofs.ProgressBars
import Chip8.Proofs.RegisterListings
import Chip8.Proofs.MissingOperands
import Chip8.Proofs.PrintableTexts
import Chip8.Proofs.LogLevels
import Chip8.Proofs.BitFields
import Chip8.Proofs.Throttling
