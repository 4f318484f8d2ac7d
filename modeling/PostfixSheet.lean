import PostfixSheet.Main
import PostfixSheet.Proofs.Text.Digits
import PostfixSheet.Proofs.Text.Pieces
import PostfixSheet.Proofs.Text.Joined
import PostfixSheet.Proofs.Text.LineEnds
import PostfixSheet.Proofs.Text.Utf8
import PostfixSheet.Proofs.Decimal.Numeral
import PostfixSheet.Proofs.Decimal.Rounding
import PostfixSheet.Proofs.Decimal.Shortest
import PostfixSheet.Proofs.Decimal.Layout
import PostfixSheet.Proofs.Decimal.Shown
import PostfixSheet.Proofs.Decimal.Exact
import PostfixSheet.Proofs.Json.Fields
import PostfixSheet.Proofs.Json.Number
import PostfixSheet.Proofs.Json.Text
import PostfixSheet.Proofs.Json.Tokens
import PostfixSheet.Proofs.Json.RoundTrip
import PostfixSheet.Proofs.Files.Tree
import PostfixSheet.Proofs.Address.Column
import PostfixSheet.Proofs.Address.Label
import PostfixSheet.Proofs.Token.Kind
import PostfixSheet.Proofs.Infix.Grammar
import PostfixSheet.Proofs.Infix.Lexing
import PostfixSheet.Proofs.Infix.Parsing
import PostfixSheet.Proofs.Infix.Completion
import PostfixSheet.Proofs.Infix.Postorder
import PostfixSheet.Proofs.Infix.Faults
import PostfixSheet.Proofs.Infix.Value
import PostfixSheet.Proofs.Grid.Cells
import PostfixSheet.Proofs.Grid.Written
import PostfixSheet.Proofs.Grid.Reading
import PostfixSheet.Proofs.Grid.Edits
import PostfixSheet.Proofs.Grid.Frame
import PostfixSheet.Proofs.Evaluation.Agreement
import PostfixSheet.Proofs.Evaluation.Trail
import PostfixSheet.Proofs.Evaluation.Guard
import PostfixSheet.Proofs.Evaluation.Cycle
import PostfixSheet.Proofs.Evaluation.Composition
import PostfixSheet.Proofs.Evaluation.BottomUp
import PostfixSheet.Proofs.Evaluation.Calls
import PostfixSheet.Proofs.Evaluation.Requests
import PostfixSheet.Proofs.Evaluation.Ceiling
import PostfixSheet.Proofs.Evaluation.Accounting
import PostfixSheet.Proofs.Evaluation.Moving
import PostfixSheet.Proofs.Evaluation.InProgress
import PostfixSheet.Proofs.Journal.Recording
import PostfixSheet.Proofs.Journal.Reading
import PostfixSheet.Proofs.Journal.History
import PostfixSheet.Proofs.Journal.Appending
import PostfixSheet.Proofs.Sheet.Snapshot
import PostfixSheet.Proofs.Sheet.Account
import PostfixSheet.Proofs.Sheet.Session
import PostfixSheet.Proofs.Sheet.Reproduction
import PostfixSheet.Proofs.Sheet.Locality
import PostfixSheet.Proofs.Files.Paths
import PostfixSheet.Proofs.Journal.Reporting
import PostfixSheet.Proofs.Settings.Loading
import PostfixSheet.Proofs.CommandLine.Stages
import PostfixSheet.Proofs.CommandLine.Endings
import PostfixSheet.Proofs.CommandLine.Target
import PostfixSheet.Proofs.CommandLine.Cell
import PostfixSheet.Proofs.Address.ColumnOrder
import PostfixSheet.Proofs.Address.Spelling
import PostfixSheet.Proofs.Token.Condensed
import PostfixSheet.Proofs.Token.Classes
import PostfixSheet.Proofs.Sheet.Condensed
