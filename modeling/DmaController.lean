import DmaController.Argument.Grammar
import DmaController.Argument.Types
import DmaController.Bus.Bank
import DmaController.Bus.Dialogue
import DmaController.Bus.Direct
import DmaController.Bus.Emulator
import DmaController.Bus.Script
import DmaController.Capability
import DmaController.Command.Run
import DmaController.Command.Usage
import DmaController.Controller.Bank
import DmaController.Controller.Basic
import DmaController.Controller.Channel
import DmaController.Controller.Execute
import DmaController.Controller.Registers
import DmaController.Controller.Remarks
import DmaController.Driver.Basic
import DmaController.Driver.Context
import DmaController.Driver.Probe
import DmaController.Driver.Thread
import DmaController.Instruction.Basic
import DmaController.Instruction.Encoding
import DmaController.Instruction.Listing
import DmaController.Instruction.Opcode
import DmaController.Instruction.Text
import DmaController.Log
import DmaController.Main
import DmaController.Memory.Basic
import DmaController.Memory.Page
import DmaController.Microprogram.Build
import DmaController.Microprogram.Instructions
import DmaController.Proofs.Bus.Dialogue
import DmaController.Proofs.Bus.Events
import DmaController.Proofs.Bus.Journal
import DmaController.Proofs.Bus.Lifecycle
import DmaController.Proofs.Bus.Lives
import DmaController.Proofs.Bus.Quiet
import DmaController.Proofs.Bus.Reachable
import DmaController.Proofs.Bus.RegisterFile
import DmaController.Proofs.Bus.Security
import DmaController.Proofs.Bus.Slicing
import DmaController.Proofs.Bus.Time
import DmaController.Proofs.Bus.Transcript
import DmaController.Proofs.Command.Planning
import DmaController.Proofs.Command.Runs
import DmaController.Proofs.Command.Stages
import DmaController.Proofs.Controller.Bank
import DmaController.Proofs.Controller.Buffer
import DmaController.Proofs.Controller.Code
import DmaController.Proofs.Controller.Course
import DmaController.Proofs.Controller.Debug
import DmaController.Proofs.Controller.Events
import DmaController.Proofs.Controller.Moves
import DmaController.Proofs.Controller.RegisterFile
import DmaController.Proofs.Controller.Registers
import DmaController.Proofs.Controller.Security
import DmaController.Proofs.Controller.Solo
import DmaController.Proofs.Controller.Transitions
import DmaController.Proofs.Driver.Attempts
import DmaController.Proofs.Driver.Commands
import DmaController.Proofs.Driver.Discipline
import DmaController.Proofs.Driver.Effects
import DmaController.Proofs.Driver.Elsewhere
import DmaController.Proofs.Driver.Isolation
import DmaController.Proofs.Driver.Kill
import DmaController.Proofs.Driver.Orders
import DmaController.Proofs.Driver.Patience
import DmaController.Proofs.Driver.Probe
import DmaController.Proofs.Driver.RunningTime
import DmaController.Proofs.Driver.Security
import DmaController.Proofs.Driver.Sessions
import DmaController.Proofs.Driver.Start
import DmaController.Proofs.Driver.StartOutcome
import DmaController.Proofs.Driver.Waiting
import DmaController.Proofs.Driver.WholeClear
import DmaController.Proofs.Driver.WholeCopy
import DmaController.Proofs.Driver.WholeRun
import DmaController.Proofs.Driver.Window
import DmaController.Proofs.Execution.Carry
import DmaController.Proofs.Execution.Completion
import DmaController.Proofs.Execution.Duration
import DmaController.Proofs.Execution.Faults
import DmaController.Proofs.Execution.Footprint
import DmaController.Proofs.Execution.Outcome
import DmaController.Proofs.Execution.Peripherals
import DmaController.Proofs.Execution.Program
import DmaController.Proofs.Execution.Round
import DmaController.Proofs.Execution.SwapBack
import DmaController.Proofs.Execution.Swaps
import DmaController.Proofs.Execution.Tasks
import DmaController.Proofs.Execution.Verdict
import DmaController.Proofs.Instruction.Decoding
import DmaController.Proofs.Instruction.Listing
import DmaController.Proofs.Instruction.Loops
import DmaController.Proofs.Instruction.Reading
import DmaController.Proofs.Instruction.Tiling
import DmaController.Proofs.Memory.Agreement
import DmaController.Proofs.Memory.History
import DmaController.Proofs.Memory.Overlay
import DmaController.Proofs.Memory.View
import DmaController.Proofs.Memory.Words
import DmaController.Proofs.Microprogram.Builder
import DmaController.Proofs.Microprogram.Capacity
import DmaController.Proofs.Microprogram.Layout
import DmaController.Proofs.Microprogram.Operands
import DmaController.Proofs.Microprogram.Shape
import DmaController.Proofs.Transfer.Accounting
import DmaController.Proofs.Transfer.Blocks
import DmaController.Proofs.Transfer.Clears
import DmaController.Proofs.Transfer.Control
import DmaController.Proofs.Transfer.Copies
import DmaController.Proofs.Transfer.Draws
import DmaController.Proofs.Transfer.Journal
import DmaController.Proofs.Transfer.LoopNest
import DmaController.Proofs.Transfer.Overflow
import DmaController.Proofs.Transfer.Peripherals
import DmaController.Proofs.Transfer.Planning
import DmaController.Proofs.Transfer.Reach
import DmaController.Register.ChannelControl
import DmaController.Register.Fault
import DmaController.Register.Field
import DmaController.Register.Layout
import DmaController.Register.Map
import DmaController.Text.Hex
import DmaController.Transfer.LoopNest
import DmaController.Transfer.Plan
import DmaController.Transfer.Request
import DmaController.Word
