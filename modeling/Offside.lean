import Offside.Grammar.Allowance
import Offside.Main
import Offside.Sample
import Offside.Scope.Inspect
import Offside.Text.Utf8
import Offside.Proofs.Grammar.Laws
import Offside.Proofs.Grammar.Blanks
import Offside.Proofs.Grammar.Words
import Offside.Proofs.Grammar.Numbers
import Offside.Proofs.Grammar.Soundness
import Offside.Proofs.Grammar.CompleteExpr
import Offside.Proofs.Grammar.CompleteProgram
import Offside.Proofs.Layout
import Offside.Proofs.RoundTrip
import Offside.Proofs.Run.Laws
import Offside.Proofs.Run.Points
import Offside.Proofs.Run.Scopes
import Offside.Proofs.Places
import Offside.Proofs.Blame
import Offside.Proofs.Numerals
import Offside.Proofs.NoPanic
import Offside.Proofs.Run.Mentions
import Offside.Proofs.Run.Pairs
import Offside.Proofs.Run.Depth
import Offside.Proofs.Rewriting
import Offside.Proofs.Streams
import Offside.Proofs.Loading
import Offside.Proofs.Bare
import Offside.Proofs.NothingLost
import Offside.Proofs.Run.Frame
import Offside.Proofs.Placeholders
import Offside.Proofs.Placement
import Offside.Proofs.Indentation
import Offside.Proofs.Run.Relevance
import Offside.Proofs.Moving
import Offside.Proofs.Concatenation
import Offside.Proofs.Spans
import Offside.Proofs.Columns
import Offside.Proofs.Arithmetic
import Offside.Proofs.Decoding
import Offside.Proofs.Drivers
import Offside.Proofs.Comparisons
import Offside.Proofs.Lines
import Offside.Proofs.InputLines
import Offside.Proofs.PlainReport
import Offside.Proofs.Run.Yields
import Offside.Proofs.Factorial
