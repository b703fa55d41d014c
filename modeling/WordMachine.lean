import WordMachine.Word.Basic
import WordMachine.Word.Gate
import WordMachine.Word.Arithmetic
import WordMachine.Word.Order
import WordMachine.Word.Signed
import WordMachine.Word.Value
import WordMachine.Text.Lines
import WordMachine.Text.Uppercase
import WordMachine.Text.Unprintable
import WordMachine.Text.Quoted
import WordMachine.Text.Decimal
import WordMachine.Word.Digits
import WordMachine.Instruction.Flags
import WordMachine.Instruction.Opcode
import WordMachine.Instruction.Basic
import WordMachine.Program.Basic
import WordMachine.Program.Listing
import WordMachine.Program.Image
import WordMachine.Assembly.Error
import WordMachine.Assembly.Operand
import WordMachine.Assembly.Basic
import WordMachine.Machine.Memory
import WordMachine.Machine.Architecture
import WordMachine.Machine.Control
import WordMachine.Machine.Event
import WordMachine.Machine.Basic
import WordMachine.Machine.Step
import WordMachine.Machine.Run
import WordMachine.Machine.Listeners
import WordMachine.Machine.Snapshot
import WordMachine.Json.Value
import WordMachine.Json.Reader
import WordMachine.Json.Forms
import WordMachine.Debugger.Session
import WordMachine.Debugger.Screen
import WordMachine.Machine.Host
import WordMachine.CommandLine.Path
import WordMachine.CommandLine.Files
import WordMachine.CommandLine.Script
import WordMachine.CommandLine.Arguments
import WordMachine.CommandLine.Basic
import WordMachine.CommandLine.Actions
import WordMachine.Main
import WordMachine.Proofs.Arithmetic
import WordMachine.Proofs.Signed
import WordMachine.Proofs.NumberMachine
import WordMachine.Proofs.Soundness
import WordMachine.Proofs.StepNumbers
import WordMachine.Proofs.BoundedRun
import WordMachine.Proofs.AssembledProgram
import WordMachine.Proofs.LabelledJumps
import WordMachine.Proofs.InstructionCodec
import WordMachine.Proofs.PrintedInstruction
import WordMachine.Proofs.Reassembly
import WordMachine.Proofs.ImageRoundTrip
import WordMachine.Proofs.ContinuousExecution
import WordMachine.Proofs.FaultyCalls
import WordMachine.Proofs.Histories
import WordMachine.Proofs.MemoryHistory
import WordMachine.Proofs.LineErrors
import WordMachine.Proofs.Relocation
import WordMachine.Proofs.ResetHistories
import WordMachine.Proofs.SessionResets
import WordMachine.Proofs.Multiplication
import WordMachine.Proofs.SavedImages
import WordMachine.Proofs.ComparedJumps
import WordMachine.Proofs.Products
import WordMachine.Proofs.SignedCodec
import WordMachine.Proofs.Literals
import WordMachine.Proofs.Surroundings
import WordMachine.Proofs.CompactNotation
import WordMachine.Proofs.Contents
import WordMachine.Proofs.ImageGrammar
import WordMachine.Proofs.MovedLines
import WordMachine.Proofs.Composition
import WordMachine.Proofs.DigitCodecs
import WordMachine.Proofs.EventOrder
import WordMachine.Proofs.CodeWindow
import WordMachine.Proofs.ShownInstruction
import WordMachine.Proofs.HostAnswers
import WordMachine.Proofs.OpenedSessions
import WordMachine.Proofs.Comparisons
import WordMachine.Proofs.ProgramHistories
import WordMachine.Proofs.WidthOperations
import WordMachine.Proofs.JsonSpelling
import WordMachine.Proofs.JsonText
import WordMachine.Proofs.JsonForms
import WordMachine.Proofs.Snapshots
