import Progressions.Main
import Progressions.Request
import Progressions.Stream.Registry
import Progressions.Proofs.Lexeme.Cut
import Progressions.Proofs.Lexeme.Words
import Progressions.Proofs.Grammar.Acceptance
import Progressions.Proofs.Grammar.Sentence
import Progressions.Proofs.Grammar.Language
import Progressions.Proofs.Stream.Reference
import Progressions.Proofs.Number.Operands
import Progressions.Proofs.Pattern.Classification
import Progressions.Proofs.Grammar.Literals
import Progressions.Proofs.Interpretation.Safety
import Progressions.Proofs.Interpretation.Answers
import Progressions.Proofs.Lexeme.Boundaries
import Progressions.Proofs.Token.Partition
import Progressions.Proofs.Grammar.Rejection
import Progressions.Proofs.Stream.Description
import Progressions.Proofs.Interpretation.Agreement
import Progressions.Proofs.Number.Printing
import Progressions.Proofs.Pattern.Integers
import Progressions.Proofs.Stream.Continuation
import Progressions.Proofs.Grammar.Printing
import Progressions.Proofs.Stream.Integers
import Progressions.Proofs.Interpretation.Respecification
import Progressions.Proofs.Stream.Scripts
import Progressions.Proofs.Grammar.Operations
import Progressions.Proofs.Number.Exact
import Progressions.Proofs.Stream.Extent
import Progressions.Proofs.Number.Nearest
import Progressions.Proofs.Pattern.Ratios
import Progressions.Proofs.Number.Approximation
import Progressions.Proofs.Number.Direction
import Progressions.Proofs.Stream.Moves
import Progressions.Proofs.Stream.Direction
import Progressions.Proofs.Stream.Termination
import Progressions.Proofs.Number.RelativeError
import Progressions.Proofs.Stream.Regeneration
import Progressions.Proofs.Number.Integers
import Progressions.Proofs.Stream.Powers
import Progressions.Proofs.Grammar.Causes
import Progressions.Proofs.Stream.States
import Progressions.Proofs.Stream.Endless
import Progressions.Proofs.Stream.Comparable
import Progressions.Proofs.Number.Shortest
import Progressions.Proofs.CommandLine.Arguments
import Progressions.Proofs.Grammar.Rereading
import Progressions.Proofs.CommandLine.Lines
import Progressions.Proofs.CommandLine.Printing
import Progressions.Proofs.Stream.Selection
import Progressions.Proofs.CommandLine.Values
import Progressions.Proofs.Number.Decimal
import Progressions.Proofs.Token.Longest
import Progressions.Proofs.Token.Splits
import Progressions.Proofs.Value.Document
import Progressions.Proofs.Interpretation.Documents
import Progressions.Proofs.CommandLine.Describing
