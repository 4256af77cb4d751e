import SolidityAudit.Analysis.Service
import SolidityAudit.Analysis.Session
import SolidityAudit.Analysis.Store
import SolidityAudit.Audit.Gas
import SolidityAudit.Audit.Issue
import SolidityAudit.Audit.Report
import SolidityAudit.Audit.Rule
import SolidityAudit.Audit.Score
import SolidityAudit.Audit.Standard
import SolidityAudit.Command.Display
import SolidityAudit.Command.Help
import SolidityAudit.Command.Line
import SolidityAudit.Command.Run
import SolidityAudit.Command.Word
import SolidityAudit.Config.Codec
import SolidityAudit.Config.Settings
import SolidityAudit.Config.SettingsFile
import SolidityAudit.Contract.Collect
import SolidityAudit.Contract.Decode
import SolidityAudit.Contract.Facts
import SolidityAudit.Contract.Parse
import SolidityAudit.Digest.Sha256
import SolidityAudit.Fault
import SolidityAudit.Json.Reader
import SolidityAudit.Json.Writer
import SolidityAudit.Ledger.Client
import SolidityAudit.Ledger.Compiler
import SolidityAudit.Ledger.Mirror
import SolidityAudit.Ledger.Network
import SolidityAudit.Ledger.Transaction
import SolidityAudit.Legal.Reply
import SolidityAudit.Legal.Summary
import SolidityAudit.Main
import SolidityAudit.Number.Decimal
import SolidityAudit.Number.Double
import SolidityAudit.Number.Integer
import SolidityAudit.Number.Shortest
import SolidityAudit.Outside.Console
import SolidityAudit.Outside.Files
import SolidityAudit.Outside.Recorded
import SolidityAudit.Outside.Request
import SolidityAudit.Path
import SolidityAudit.Proofs.Analysis.Agreement
import SolidityAudit.Proofs.Analysis.Alone
import SolidityAudit.Proofs.Analysis.Deployment
import SolidityAudit.Proofs.Analysis.Lifecycle
import SolidityAudit.Proofs.Analysis.Log
import SolidityAudit.Proofs.Analysis.Move
import SolidityAudit.Proofs.Analysis.Overlap
import SolidityAudit.Proofs.Analysis.Pool
import SolidityAudit.Proofs.Analysis.Recent
import SolidityAudit.Proofs.Analysis.Recorded
import SolidityAudit.Proofs.Analysis.Search
import SolidityAudit.Proofs.Analysis.Session
import SolidityAudit.Proofs.Analysis.Source
import SolidityAudit.Proofs.Analysis.Station
import SolidityAudit.Proofs.Analysis.Statistics
import SolidityAudit.Proofs.Analysis.Store
import SolidityAudit.Proofs.Analysis.Update
import SolidityAudit.Proofs.Audit.Finding
import SolidityAudit.Proofs.Audit.Gas
import SolidityAudit.Proofs.Audit.Report
import SolidityAudit.Proofs.Audit.Score
import SolidityAudit.Proofs.Audit.Storage
import SolidityAudit.Proofs.Audit.Summary
import SolidityAudit.Proofs.Audit.Surroundings
import SolidityAudit.Proofs.Audit.Table
import SolidityAudit.Proofs.Audit.Verdict
import SolidityAudit.Proofs.Audit.Written
import SolidityAudit.Proofs.Command.Summary
import SolidityAudit.Proofs.Config.Loading
import SolidityAudit.Proofs.Config.Saved
import SolidityAudit.Proofs.Config.SettingsFile
import SolidityAudit.Proofs.Contract.Append
import SolidityAudit.Proofs.Contract.Fallback
import SolidityAudit.Proofs.Contract.Label
import SolidityAudit.Proofs.Contract.Offence
import SolidityAudit.Proofs.Contract.Outline
import SolidityAudit.Proofs.Contract.Visitors
import SolidityAudit.Proofs.Contract.Walk
import SolidityAudit.Proofs.Fault
import SolidityAudit.Proofs.Json.Layout
import SolidityAudit.Proofs.Json.Mode
import SolidityAudit.Proofs.Json.Prefix
import SolidityAudit.Proofs.Json.Quoted
import SolidityAudit.Proofs.Json.Reader
import SolidityAudit.Proofs.Json.Writable
import SolidityAudit.Proofs.Json.Writer
import SolidityAudit.Proofs.Ledger.Balance
import SolidityAudit.Proofs.Ledger.Mirror
import SolidityAudit.Proofs.Ledger.Nonce
import SolidityAudit.Proofs.Ledger.Pool
import SolidityAudit.Proofs.Ledger.Recorded
import SolidityAudit.Proofs.Ledger.Stage
import SolidityAudit.Proofs.Legal.Extract
import SolidityAudit.Proofs.Legal.Reply
import SolidityAudit.Proofs.Legal.Summary
import SolidityAudit.Proofs.Number.Decimal
import SolidityAudit.Proofs.Number.Double
import SolidityAudit.Proofs.Number.Plain
import SolidityAudit.Proofs.Outside.Files
import SolidityAudit.Proofs.Outside.Recorded
import SolidityAudit.Proofs.Places
import SolidityAudit.Proofs.Script
import SolidityAudit.Proofs.Solidity.Derivation
import SolidityAudit.Proofs.Solidity.Discipline
import SolidityAudit.Proofs.Solidity.File
import SolidityAudit.Proofs.Solidity.Item
import SolidityAudit.Proofs.Solidity.Nesting
import SolidityAudit.Proofs.Solidity.Piece
import SolidityAudit.Proofs.Solidity.Prefix
import SolidityAudit.Proofs.Solidity.Scan
import SolidityAudit.Proofs.Source.ByteOrderMark
import SolidityAudit.Proofs.Source.Encoding
import SolidityAudit.Proofs.Text.Count
import SolidityAudit.Proofs.Text.Digit
import SolidityAudit.Proofs.Text.Line
import SolidityAudit.Proofs.Text.Pattern
import SolidityAudit.Proofs.Text.Place
import SolidityAudit.Proofs.Text.Separator
import SolidityAudit.Proofs.Text.Utf8
import SolidityAudit.Proofs.Value.Equality
import SolidityAudit.Proofs.Value.Leaves
import SolidityAudit.Proofs.Value.Sorted
import SolidityAudit.Proofs.Yaml.Codec
import SolidityAudit.Proofs.Yaml.Reader
import SolidityAudit.Proofs.Yaml.Writer
import SolidityAudit.Script
import SolidityAudit.Solidity.Chart
import SolidityAudit.Solidity.Defect
import SolidityAudit.Solidity.Grammar
import SolidityAudit.Solidity.Lexer
import SolidityAudit.Solidity.Outline
import SolidityAudit.Solidity.Token
import SolidityAudit.Solidity.Tree
import SolidityAudit.Source.Encoding
import SolidityAudit.Source.File
import SolidityAudit.Text.Blank
import SolidityAudit.Text.Digit
import SolidityAudit.Text.Pattern
import SolidityAudit.Text.Printable
import SolidityAudit.Text.Quoted
import SolidityAudit.Text.Utf8
import SolidityAudit.Text.Word
import SolidityAudit.Time.Instant
import SolidityAudit.Value
import SolidityAudit.Value.Access
import SolidityAudit.Value.Display
import SolidityAudit.Value.Leaves
import SolidityAudit.Value.Sorted
import SolidityAudit.Yaml.Codec
import SolidityAudit.Yaml.Reader
import SolidityAudit.Yaml.Scalar
import SolidityAudit.Yaml.Writer
