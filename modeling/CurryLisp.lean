import CurryLisp.Main
import CurryLisp.Proofs.Acceptance
import CurryLisp.Proofs.ArgumentBinding
import CurryLisp.Proofs.Arithmetic
import CurryLisp.Proofs.Commands
import CurryLisp.Proofs.Concatenation
import CurryLisp.Proofs.Currying
import CurryLisp.Proofs.Division
import CurryLisp.Proofs.Frames
import CurryLisp.Proofs.Grammar
import CurryLisp.Proofs.History
import CurryLisp.Proofs.InUse
import CurryLisp.Proofs.Layout
import CurryLisp.Proofs.LexicalScope
import CurryLisp.Proofs.LimitTexts
import CurryLisp.Proofs.Limits
import CurryLisp.Proofs.Loading
import CurryLisp.Proofs.NamedFunctions
import CurryLisp.Proofs.Numerals
import CurryLisp.Proofs.OuterBrackets
import CurryLisp.Proofs.Parameters
import CurryLisp.Proofs.Places
import CurryLisp.Proofs.Powers
import CurryLisp.Proofs.Preludes
import CurryLisp.Proofs.PrintedFunctions
import CurryLisp.Proofs.PrintedResults
import CurryLisp.Proofs.Range
import CurryLisp.Proofs.Refusals
import CurryLisp.Proofs.Retelling
import CurryLisp.Proofs.RoundTrip
import CurryLisp.Proofs.Sameness
import CurryLisp.Proofs.Seams
import CurryLisp.Proofs.Settled
import CurryLisp.Proofs.Shifts
import CurryLisp.Proofs.Slices
import CurryLisp.Proofs.Sorting
import CurryLisp.Proofs.Splitting
import CurryLisp.Proofs.Stops
import CurryLisp.Proofs.Streams
import CurryLisp.Proofs.UnusedNames
import CurryLisp.Proofs.Words
import CurryLisp.Syntax.Stream
import CurryLisp.Value.Inspect
