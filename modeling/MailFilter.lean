import MailFilter.Action
import MailFilter.CommandLine.Execution
import MailFilter.CommandLine.Help
import MailFilter.CommandLine.Request
import MailFilter.CommandLine.Word
import MailFilter.Delivery.Basic
import MailFilter.Delivery.Dispatch
import MailFilter.Delivery.Markers
import MailFilter.Delivery.Notice
import MailFilter.Engine
import MailFilter.Evaluation.Commands
import MailFilter.Evaluation.Event
import MailFilter.Evaluation.State
import MailFilter.Evaluation.Tests
import MailFilter.Evaluation.VacationArguments
import MailFilter.Fault
import MailFilter.Files.Basic
import MailFilter.Files.Disk
import MailFilter.Files.Load
import MailFilter.Files.Path
import MailFilter.Host.AddressList
import MailFilter.Host.DateExtent
import MailFilter.Host.EncodedWord
import MailFilter.Host.HeaderBlock
import MailFilter.Host.HeaderText
import MailFilter.Host.OpenToken
import MailFilter.Host.Reader
import MailFilter.Host.Windows1252
import MailFilter.Json
import MailFilter.Json.Printer
import MailFilter.Json.Reader
import MailFilter.Mail.Address
import MailFilter.Mail.Message
import MailFilter.Mail.Reader
import MailFilter.Main
import MailFilter.Match.Arguments
import MailFilter.Match.Comparator
import MailFilter.Match.Glob
import MailFilter.Match.Mode
import MailFilter.NameTable
import MailFilter.Proofs.Delivery.Admission
import MailFilter.Proofs.Delivery.Effects
import MailFilter.Proofs.Delivery.NoticeLines
import MailFilter.Proofs.Delivery.Replies
import MailFilter.Proofs.Evaluation.Budget
import MailFilter.Proofs.Evaluation.Capabilities
import MailFilter.Proofs.Evaluation.Chain
import MailFilter.Proofs.Evaluation.ChainAgreement
import MailFilter.Proofs.Evaluation.Changes
import MailFilter.Proofs.Evaluation.Combinators
import MailFilter.Proofs.Evaluation.Comparison
import MailFilter.Proofs.Evaluation.Domains
import MailFilter.Proofs.Evaluation.EarlierActions
import MailFilter.Proofs.Evaluation.Envelope
import MailFilter.Proofs.Evaluation.Executed
import MailFilter.Proofs.Evaluation.Existence
import MailFilter.Proofs.Evaluation.Failures
import MailFilter.Proofs.Evaluation.Faults
import MailFilter.Proofs.Evaluation.Reachable
import MailFilter.Proofs.Evaluation.Requirement
import MailFilter.Proofs.Evaluation.Resolution
import MailFilter.Proofs.Evaluation.Run
import MailFilter.Proofs.Evaluation.Steps
import MailFilter.Proofs.Evaluation.VacationChoices
import MailFilter.Proofs.Evaluation.Verdict
import MailFilter.Proofs.Files.Growth
import MailFilter.Proofs.Files.Place
import MailFilter.Proofs.Json.RoundTrip
import MailFilter.Proofs.Loop
import MailFilter.Proofs.Mail.Addresses
import MailFilter.Proofs.Match.Choices
import MailFilter.Proofs.Match.Comparator
import MailFilter.Proofs.Match.Glob
import MailFilter.Proofs.Match.GlobLoop
import MailFilter.Proofs.Runs.KeepAsFiling
import MailFilter.Proofs.Runs.LoopProtection
import MailFilter.Proofs.Runs.NoLoss
import MailFilter.Proofs.Script.Building
import MailFilter.Proofs.Script.Bytewise
import MailFilter.Proofs.Script.BytewiseLoops
import MailFilter.Proofs.Script.BytewisePositions
import MailFilter.Proofs.Script.BytewiseSafety
import MailFilter.Proofs.Script.Caseless
import MailFilter.Proofs.Script.Concatenation
import MailFilter.Proofs.Script.Folding
import MailFilter.Proofs.Script.Grammar
import MailFilter.Proofs.Script.Induction
import MailFilter.Proofs.Script.Legality
import MailFilter.Proofs.Script.Number
import MailFilter.Proofs.Script.Numeral
import MailFilter.Proofs.Script.Parsing
import MailFilter.Proofs.Script.Pieces
import MailFilter.Proofs.Script.Readers
import MailFilter.Proofs.Script.Recasing
import MailFilter.Proofs.Script.Seam
import MailFilter.Proofs.Script.Spelling
import MailFilter.Proofs.Script.Strings
import MailFilter.Proofs.Script.TestParsing
import MailFilter.Proofs.Script.Tiling
import MailFilter.Proofs.Script.Validation
import MailFilter.Proofs.Store.Confinement
import MailFilter.Proofs.Store.Numbering
import MailFilter.Proofs.Store.Submissions
import MailFilter.Proofs.Text.Ascii
import MailFilter.Proofs.Text.Lines
import MailFilter.Proofs.Text.Utf8
import MailFilter.Registry
import MailFilter.Script.Basic
import MailFilter.Script.Lexer
import MailFilter.Script.Node
import MailFilter.Script.Number
import MailFilter.Script.OfNode
import MailFilter.Script.Parser
import MailFilter.Script.Token
import MailFilter.Script.Validation
import MailFilter.Settings
import MailFilter.Store.Basic
import MailFilter.Store.Folder
import MailFilter.Store.Recorded
import MailFilter.Text.Ascii
import MailFilter.Text.Blank
import MailFilter.Text.Printable
import MailFilter.Text.Quoted
import MailFilter.Text.Split
import MailFilter.Text.Utf8
