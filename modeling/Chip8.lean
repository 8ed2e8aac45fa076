import Chip8.Console
import Chip8.Instruction.Encode
import Chip8.Machine.History
import Chip8.Web.Endpoint
import Chip8.Proofs.Instruction.Effect
import Chip8.Proofs.Instruction.Table
import Chip8.Proofs.Machine.Cycle
import Chip8.Proofs.Machine.Failure
import Chip8.Proofs.Instruction.Component
import Chip8.Proofs.Machine.Footprint
import Chip8.Proofs.Screen.Pixel
import Chip8.Proofs.Screen.Sprite
import Chip8.Proofs.Machine.Overlay
import Chip8.Proofs.Machine.Bounds
import Chip8.Proofs.Machine.Cycles
import Chip8.Proofs.Machine.SelfJump
import Chip8.Proofs.Machine.Core
import Chip8.Proofs.Run.Start
import Chip8.Proofs.Run.Course
import Chip8.Proofs.Run.Accounting
import Chip8.Proofs.Run.SelfJumpStop
import Chip8.Proofs.Run.Retrace
import Chip8.Proofs.Run.Limit
import Chip8.Proofs.Machine.Histories
import Chip8.Proofs.Machine.Nesting
import Chip8.Proofs.Machine.Reset
import Chip8.Proofs.Machine.Timers
import Chip8.Proofs.Machine.Lockstep
import Chip8.Proofs.Run.LegacyShift
import Chip8.Proofs.Run.EdgeModes
import Chip8.Proofs.Keypad.Sampling
import Chip8.Proofs.Run.SkipPolicy
import Chip8.Proofs.Run.Frequency
import Chip8.Proofs.Machine.Draws
import Chip8.Proofs.Run.Reports
import Chip8.Proofs.Web.Framework
import Chip8.Proofs.Web.Checks
import Chip8.Proofs.Web.Answers
import Chip8.Proofs.Machine.Contents
import Chip8.Proofs.Run.ListedWords
import Chip8.Proofs.Screen.Patterns
import Chip8.Proofs.Screen.Redrawing
import Chip8.Proofs.Instruction.Lines
import Chip8.Proofs.Instruction.Texts
import Chip8.Proofs.Run.Record
import Chip8.Proofs.Memory.Stores
import Chip8.Proofs.Instruction.Arithmetic
import Chip8.Proofs.Instruction.Blocks
import Chip8.Proofs.Keypad.Waiting
import Chip8.Proofs.Text.Hex
import Chip8.Proofs.Web.ProgramText
import Chip8.Proofs.Web.Listings
import Chip8.Proofs.Machine.ChangedFlag
import Chip8.Proofs.Screen.Readings
import Chip8.Proofs.Screen.HeldViews
import Chip8.Proofs.Screen.Framebuffers
