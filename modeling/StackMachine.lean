import StackMachine.Word
import StackMachine.Text.Blank
import StackMachine.Text.Lines
import StackMachine.Text.Layout
import StackMachine.Text.Style
import StackMachine.Operation
import StackMachine.Literal
import StackMachine.Instruction
import StackMachine.Image
import StackMachine.Source.Problem
import StackMachine.Source.Lexeme
import StackMachine.Source.Token
import StackMachine.Source.Line
import StackMachine.Assembly.Tables
import StackMachine.Assembly.Slot
import StackMachine.Assembly.Basic
import StackMachine.Assembly.Listing
import StackMachine.Machine.Fault
import StackMachine.Machine.Basic
import StackMachine.Machine.Step
import StackMachine.Machine.Run
import StackMachine.Machine.Report
import StackMachine.Machine.Hook
import StackMachine.Text.Hidden
import StackMachine.Text.Quoted
import StackMachine.Double
import StackMachine.Yaml.Place
import StackMachine.Yaml.Fault
import StackMachine.Yaml.Characters
import StackMachine.Yaml.Cursor
import StackMachine.Yaml.Gap
import StackMachine.Yaml.Plain
import StackMachine.Yaml.Quoted
import StackMachine.Yaml.Block
import StackMachine.Yaml.Property
import StackMachine.Yaml.Token
import StackMachine.Yaml.Event
import StackMachine.Yaml.Document
import StackMachine.Config.Scalar
import StackMachine.Config.Basic
import StackMachine.Command.Arguments
import StackMachine.Command.Level
import StackMachine.Command.Host
import StackMachine.Command.Assembler
import StackMachine.Command.Emulator
import StackMachine.Command.Directory
import StackMachine.Main
import StackMachine.Proofs.FirstError
import StackMachine.Proofs.Framing
import StackMachine.Proofs.Encoding
import StackMachine.Proofs.Image
import StackMachine.Proofs.Arity
import StackMachine.Proofs.Literal
import StackMachine.Proofs.Numeral
import StackMachine.Proofs.Text.Lines
import StackMachine.Proofs.Source.Lexeme
import StackMachine.Proofs.Source.SinglePass
import StackMachine.Proofs.Source.Class
import StackMachine.Proofs.Source.Recogniser
import StackMachine.Proofs.Source.Line
import StackMachine.Proofs.Source.Operand
import StackMachine.Proofs.Source.Grammar
import StackMachine.Proofs.Assembly.Layout
import StackMachine.Proofs.Assembly.Tables
import StackMachine.Proofs.Assembly.Stages
import StackMachine.Proofs.Assembly.Disassembly
import StackMachine.Proofs.Assembly.Reference
import StackMachine.Proofs.Assembly.Outcome
import StackMachine.Proofs.Machine.Exec
import StackMachine.Proofs.Machine.Effect
import StackMachine.Proofs.Machine.Cells
import StackMachine.Proofs.Machine.Fault
import StackMachine.Proofs.Machine.Move
import StackMachine.Proofs.Machine.Session
import StackMachine.Proofs.Machine.Turn
import StackMachine.Proofs.Machine.Course
import StackMachine.Proofs.Machine.Budget
import StackMachine.Proofs.Machine.Record
import StackMachine.Proofs.Machine.Resume
import StackMachine.Proofs.Machine.Presentation
import StackMachine.Proofs.Machine.Hooks
import StackMachine.Proofs.Machine.Similar
import StackMachine.Proofs.Machine.Transfer
import StackMachine.Proofs.Machine.Table
import StackMachine.Proofs.Machine.Failure
import StackMachine.Proofs.Machine.Culprit
import StackMachine.Proofs.Machine.Frame
import StackMachine.Proofs.Assembly.Boundary
import StackMachine.Proofs.Assembly.Recompile
import StackMachine.Proofs.Assembly.Items
import StackMachine.Proofs.Assembly.AddressForm
import StackMachine.Proofs.Assembly.Relocation
import StackMachine.Proofs.Assembly.StraightLine
import StackMachine.Proofs.Assembly.ReturnAddress
import StackMachine.Proofs.Assembly.Renaming
import StackMachine.Proofs.Source.Quoting
import StackMachine.Proofs.Source.Trailing
import StackMachine.Proofs.Source.Count
import StackMachine.Proofs.Assembly.LiteralWord
import StackMachine.Proofs.Assembly.Row
import StackMachine.Proofs.Assembly.Listing
