import SpsAssembler.Assembly.Encoding
import SpsAssembler.Assembly.Placement
import SpsAssembler.Assembly.Process
import SpsAssembler.Assembly.Program
import SpsAssembler.Assembly.State
import SpsAssembler.Assembly.Statement
import SpsAssembler.Catalog.Basic
import SpsAssembler.Catalog.Table
import SpsAssembler.Command.Completion
import SpsAssembler.Command.Help
import SpsAssembler.Command.Journal
import SpsAssembler.Command.Run
import SpsAssembler.Command.Script.Bash
import SpsAssembler.Command.Script.Fish
import SpsAssembler.Command.Script.Powershell
import SpsAssembler.Command.Script.Zsh
import SpsAssembler.Command.Subcommand
import SpsAssembler.Diagnostic.Cause
import SpsAssembler.Diagnostic.Log
import SpsAssembler.Expression.Basic
import SpsAssembler.Expression.Check
import SpsAssembler.Expression.Evaluation
import SpsAssembler.Fault
import SpsAssembler.Files.Store
import SpsAssembler.Machine.Cell
import SpsAssembler.Machine.Constant
import SpsAssembler.Machine.LowCore
import SpsAssembler.Machine.Memory
import SpsAssembler.Main
import SpsAssembler.Output.Artifacts
import SpsAssembler.Output.CoreDump
import SpsAssembler.Output.Listing
import SpsAssembler.Output.Media
import SpsAssembler.Output.Provenance
import SpsAssembler.Output.Yaml.Plain
import SpsAssembler.Output.Yaml.Scalar
import SpsAssembler.Settings.Basic
import SpsAssembler.Settings.Environment
import SpsAssembler.Settings.File
import SpsAssembler.Settings.Flags
import SpsAssembler.Source.Card
import SpsAssembler.Source.Reading
import SpsAssembler.Source.Stream
import SpsAssembler.Source.TabStops
import SpsAssembler.Symbol.Name
import SpsAssembler.Symbol.Table
import SpsAssembler.Text.Basic
import SpsAssembler.Text.Capitals
import SpsAssembler.Text.Numeral
import SpsAssembler.Text.Printable
import SpsAssembler.Text.Utf8
import SpsAssembler.Toml.Basic
import SpsAssembler.Toml.Document
import SpsAssembler.Toml.Quoted
import SpsAssembler.Toml.Tokens
import SpsAssembler.Toml.Word
import SpsAssembler.Proofs.Agreement
import SpsAssembler.Proofs.Alignment
import SpsAssembler.Proofs.AlphaCodes
import SpsAssembler.Proofs.AlphaConstants
import SpsAssembler.Proofs.BeyondEnd
import SpsAssembler.Proofs.Bounds
import SpsAssembler.Proofs.CardDeck
import SpsAssembler.Proofs.CheckedValues
import SpsAssembler.Proofs.CommandFlags
import SpsAssembler.Proofs.Core
import SpsAssembler.Proofs.CoreDump
import SpsAssembler.Proofs.CountedCells
import SpsAssembler.Proofs.CrossReference
import SpsAssembler.Proofs.Deliveries
import SpsAssembler.Proofs.DumpParts
import SpsAssembler.Proofs.DumpReader
import SpsAssembler.Proofs.Echo
import SpsAssembler.Proofs.Effects
import SpsAssembler.Proofs.EncodedFields
import SpsAssembler.Proofs.Encoding
import SpsAssembler.Proofs.Expressions
import SpsAssembler.Proofs.FailingRuns
import SpsAssembler.Proofs.Faultless
import SpsAssembler.Proofs.FieldDigits
import SpsAssembler.Proofs.FieldPacking
import SpsAssembler.Proofs.Fields
import SpsAssembler.Proofs.FlagLists
import SpsAssembler.Proofs.HeadNames
import SpsAssembler.Proofs.InstructionCells
import SpsAssembler.Proofs.LabelOffsets
import SpsAssembler.Proofs.Layout
import SpsAssembler.Proofs.LegalCells
import SpsAssembler.Proofs.LegalCore
import SpsAssembler.Proofs.LegalStatements
import SpsAssembler.Proofs.LineKeys
import SpsAssembler.Proofs.Lockstep
import SpsAssembler.Proofs.Log
import SpsAssembler.Proofs.Lookups
import SpsAssembler.Proofs.MessageLines
import SpsAssembler.Proofs.Messages
import SpsAssembler.Proofs.NumericConstants
import SpsAssembler.Proofs.Occupancy
import SpsAssembler.Proofs.OperandGrammar
import SpsAssembler.Proofs.OperandReports
import SpsAssembler.Proofs.Operands
import SpsAssembler.Proofs.OutputFiles
import SpsAssembler.Proofs.Passes
import SpsAssembler.Proofs.Positions
import SpsAssembler.Proofs.Precedence
import SpsAssembler.Proofs.Presentation
import SpsAssembler.Proofs.Quotations
import SpsAssembler.Proofs.QuotedLines
import SpsAssembler.Proofs.References
import SpsAssembler.Proofs.Reports
import SpsAssembler.Proofs.RunSettings
import SpsAssembler.Proofs.SettingLayers
import SpsAssembler.Proofs.SilentSteps
import SpsAssembler.Proofs.SourceFormats
import SpsAssembler.Proofs.SourceStream
import SpsAssembler.Proofs.Stability
import SpsAssembler.Proofs.StatementPositions
import SpsAssembler.Proofs.Steps
import SpsAssembler.Proofs.StoreLaws
import SpsAssembler.Proofs.StoredNumbers
import SpsAssembler.Proofs.SymbolAddresses
import SpsAssembler.Proofs.SymbolNames
import SpsAssembler.Proofs.Symbols
import SpsAssembler.Proofs.TabColumns
import SpsAssembler.Proofs.TableCalls
import SpsAssembler.Proofs.TapeFrames
import SpsAssembler.Proofs.Twins
