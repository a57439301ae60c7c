import Conformance.Command.Line
import Conformance.Command.Options
import Conformance.Command.Run
import Conformance.Command.Template
import Conformance.Contract.Basic
import Conformance.Contract.Compile
import Conformance.Contract.Record
import Conformance.Contract.Run
import Conformance.Contract.Text
import Conformance.Contract.Validity
import Conformance.Coverage.Aspect
import Conformance.Coverage.Quantity
import Conformance.Coverage.Score
import Conformance.Decimal.Binary
import Conformance.Decimal.Layout
import Conformance.Decimal.Read
import Conformance.Decimal.Shortest
import Conformance.Document.Scalar
import Conformance.Document.Value
import Conformance.Files.Path
import Conformance.Files.Search
import Conformance.Files.Tree
import Conformance.Glob.Basic
import Conformance.Glob.Piece
import Conformance.Main
import Conformance.Order.Table
import Conformance.Pattern.Meaning
import Conformance.Pattern.Reader
import Conformance.Pattern.Tree
import Conformance.Project.Check
import Conformance.Project.Survey
import Conformance.Proofs.Command.ExitCode
import Conformance.Proofs.Contract.Records
import Conformance.Proofs.Contract.Respelling
import Conformance.Proofs.Coverage.Growth
import Conformance.Proofs.Project.Broken
import Conformance.Proofs.Project.Shadowing
import Conformance.Proofs.Source.Exactness
import Conformance.Proofs.Source.Inert
import Conformance.Proofs.Source.Layout
import Conformance.Proofs.Source.Limit
import Conformance.Proofs.Source.Lossless
import Conformance.Proofs.Source.Members
import Conformance.Proofs.Source.Statements
import Conformance.Proofs.Types.FirstWins
import Conformance.Proofs.Usage.Histories
import Conformance.Regular.Expr
import Conformance.Report.Json
import Conformance.Report.Structured
import Conformance.Report.Terminal
import Conformance.Rules.Inspection
import Conformance.Rules.Requirement
import Conformance.Rules.Selection
import Conformance.Source.Bytes
import Conformance.Source.Lexeme
import Conformance.Source.Outline
import Conformance.Source.Token
import Conformance.Text.Ascii
import Conformance.Text.Blank
import Conformance.Text.Quoted
import Conformance.Types.Environment
import Conformance.Types.Index
import Conformance.Types.Info
import Conformance.Types.Name
import Conformance.Types.Registry
import Conformance.Unicode.CaseFolding
import Conformance.Unicode.GeneralCategory
import Conformance.Unicode.Script
import Conformance.Unicode.Spans
import Conformance.Usage.Ledger
import Conformance.Yaml.Cursor
import Conformance.Yaml.Document
import Conformance.Yaml.Node
import Conformance.Yaml.ScalarText
import Conformance.Yaml.Token
import Conformance.Yaml.Tokens
import Conformance.Proofs.Source.Brackets
import Conformance.Proofs.Source.Attributes
import Conformance.Proofs.Source.HeredocEnds
import Conformance.Proofs.Source.Faults
import Conformance.Proofs.Source.UseStatements
import Conformance.Proofs.Source.ImportTable
import Conformance.Proofs.Source.Printing
import Conformance.Proofs.Files.Discovery
import Conformance.Proofs.Project.Exclusion
import Conformance.Proofs.Contract.RoundTrip
import Conformance.Proofs.Project.Overlap
import Conformance.Proofs.Project.Relocation
import Conformance.Proofs.Source.WellFormed
import Conformance.Proofs.Source.Access
import Conformance.Proofs.Command.Init
