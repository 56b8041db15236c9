import Offside.Main
import Offside.Proofs.Scope.Callee
import Offside.Proofs.Parsing.RoundTrip
import Offside.Proofs.Parsing.Lasts
import Offside.Proofs.Parsing.Steps
import Offside.Proofs.Parsing.Termination
import Offside.Proofs.Parsing.Consumption
import Offside.Proofs.Parsing.Augmented
import Offside.Proofs.Parsing.StatementCompleteness
import Offside.Proofs.Parsing.Alike
import Offside.Proofs.Parsing.Concatenation
import Offside.Proofs.Lexing.Repr
import Offside.Proofs.Lexing.Lossless
import Offside.Proofs.Parsing.Ends
import Offside.Proofs.Parsing.Semicolons
import Offside.Proofs.Parsing.Soundness
import Offside.Proofs.Parsing.Layout
import Offside.Proofs.Parsing.Blocks
import Offside.Proofs.Parsing.Outcome
import Offside.Proofs.Lexing.Nesting
import Offside.Proofs.Lexing.Indented
import Offside.Proofs.Scope.Operations
import Offside.Proofs.Lexing.Asked
import Offside.Proofs.Lexing.Settling
import Offside.Proofs.Lexing.Closing
import Offside.Proofs.Scope.Chain
import Offside.Proofs.Values.Integers
import Offside.Proofs.Parsing.TreeLines
import Offside.Proofs.Scope.Blame
import Offside.Proofs.Lexing.Opening
import Offside.Proofs.Parsing.Suites
import Offside.Proofs.Values.Order
import Offside.Proofs.Values.Remainders
import Offside.Proofs.Values.Booleans
import Offside.Proofs.Lexing.Located
import Offside.Proofs.Lexing.Relaid
import Offside.Proofs.Lexing.Bodies
import Offside.Proofs.Values.Extremes
import Offside.Proofs.Values.IntegerTexts
import Offside.Proofs.Parsing.PrintedValues
import Offside.Proofs.Parsing.LookAhead
import Offside.Proofs.Parsing.ErrorLines
import Offside.Proofs.Lexing.FloatTexts
import Offside.Proofs.Guards.Parser
import Offside.Proofs.Parsing.Sorts
import Offside.Proofs.Guards.Widths
import Offside.Proofs.Parsing.Depth
