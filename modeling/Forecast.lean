import Forecast.Calendar.Date
import Forecast.Calendar.Names
import Forecast.Calendar.Pattern
import Forecast.Calendar.Written
import Forecast.Checked
import Forecast.CommandLine
import Forecast.Decimal
import Forecast.Decimal.Binary
import Forecast.Decimal.Layout
import Forecast.Decimal.Shortest
import Forecast.Duration
import Forecast.Evaluation
import Forecast.Evaluation.Json
import Forecast.Graph
import Forecast.Json
import Forecast.Main
import Forecast.Phrase.Day
import Forecast.Phrase.Error
import Forecast.Phrase.Reader
import Forecast.Phrase.Token
import Forecast.Plan
import Forecast.Plan.Effect
import Forecast.Plan.OfScript
import Forecast.Plan.Resolve
import Forecast.Plan.Text
import Forecast.Problem
import Forecast.Proofs.Agreement
import Forecast.Proofs.Calendar.Number
import Forecast.Proofs.Calendar.Pattern
import Forecast.Proofs.Calendar.Spelled
import Forecast.Proofs.Calendar.Written
import Forecast.Proofs.CommandLine
import Forecast.Proofs.Continuation
import Forecast.Proofs.Days
import Forecast.Proofs.Diagnostics
import Forecast.Proofs.Duration
import Forecast.Proofs.Evaluation
import Forecast.Proofs.Layout
import Forecast.Proofs.Order
import Forecast.Proofs.Phrase.Day
import Forecast.Proofs.Phrase.Reader
import Forecast.Proofs.Plan.Accepted
import Forecast.Proofs.Plan.Alike
import Forecast.Proofs.Plan.Exchange
import Forecast.Proofs.Plan.Faults
import Forecast.Proofs.Plan.Frame
import Forecast.Proofs.Plan.Independence
import Forecast.Proofs.Plan.LastEntry
import Forecast.Proofs.Plan.NameErrors
import Forecast.Proofs.Plan.Numbering
import Forecast.Proofs.Plan.Outcome
import Forecast.Proofs.Plan.PatternLiteral
import Forecast.Proofs.Plan.Precedence
import Forecast.Proofs.Plan.Presentation
import Forecast.Proofs.Plan.Refinement
import Forecast.Proofs.Plan.Reordered
import Forecast.Proofs.Plan.Rewriting
import Forecast.Proofs.Plan.Unplaced
import Forecast.Proofs.Range
import Forecast.Proofs.Script.Attempts
import Forecast.Proofs.Script.Blamed
import Forecast.Proofs.Script.BlamedOnce
import Forecast.Proofs.Script.Complete
import Forecast.Proofs.Script.Completion
import Forecast.Proofs.Script.Expected
import Forecast.Proofs.Script.FirstFault
import Forecast.Proofs.Script.Flow
import Forecast.Proofs.Script.Grammar
import Forecast.Proofs.Script.Lexeme
import Forecast.Proofs.Script.Meaning
import Forecast.Proofs.Script.Names
import Forecast.Proofs.Script.Numbers
import Forecast.Proofs.Script.Occurrence
import Forecast.Proofs.Script.Parts
import Forecast.Proofs.Script.Recovery
import Forecast.Proofs.Script.Rendering
import Forecast.Proofs.Script.Rewriting
import Forecast.Proofs.Script.RoundTrip
import Forecast.Proofs.Script.Sound
import Forecast.Proofs.Script.Unplaced
import Forecast.Proofs.Script.WellFormed
import Forecast.Proofs.Settings
import Forecast.Proofs.Simulation
import Forecast.Proofs.Source.Boundary
import Forecast.Proofs.Source.Position
import Forecast.Proofs.StartDate.Clock
import Forecast.Proofs.StartDate.Guard
import Forecast.Proofs.Text
import Forecast.Proofs.Token.Longest
import Forecast.Proofs.Token.Places
import Forecast.Proofs.Token.Respaced
import Forecast.Proofs.Token.Spaced
import Forecast.Proofs.Token.Tiling
import Forecast.Report
import Forecast.Result
import Forecast.Run
import Forecast.Script.Arithmetic
import Forecast.Script.Clause
import Forecast.Script.PatternLiteral
import Forecast.Script.PropertyList
import Forecast.Script.Reader
import Forecast.Script.Step
import Forecast.Script.Tree
import Forecast.Settings
import Forecast.Settings.Error
import Forecast.Settings.OfProperties
import Forecast.Source.Position
import Forecast.StartDate
import Forecast.Text.Blank
import Forecast.Text.Digits
import Forecast.Text.Letter
import Forecast.Text.Lower
import Forecast.Text.Printable
import Forecast.Text.Quoted
import Forecast.Token
import Forecast.Token.Piece
