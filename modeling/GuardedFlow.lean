import GuardedFlow.Encoding.Response
import GuardedFlow.Encoding.Token
import GuardedFlow.Engine.Build
import GuardedFlow.Flow.Batch
import GuardedFlow.Main
import GuardedFlow.Proofs.Predicate.Folding
import GuardedFlow.Proofs.Flow.Final
import GuardedFlow.Proofs.Flow.Nesting
import GuardedFlow.Proofs.Flow.Verdict
import GuardedFlow.Proofs.Flow.Turn
import GuardedFlow.Proofs.Flow.Halting
import GuardedFlow.Proofs.Flow.Reports
import GuardedFlow.Proofs.Flow.Carried
import GuardedFlow.Proofs.Flow.WellFormed
import GuardedFlow.Proofs.Builder.Slot
import GuardedFlow.Proofs.Builder.Moves
import GuardedFlow.Proofs.Builder.Normal
import GuardedFlow.Proofs.Builder.Delimiters
import GuardedFlow.Proofs.Builder.Operators
import GuardedFlow.Proofs.Builder.Items
import GuardedFlow.Proofs.Builder.Grammar
import GuardedFlow.Proofs.Builder.Reading
import GuardedFlow.Proofs.Builder.Completeness
import GuardedFlow.Proofs.Engine.Spec
import GuardedFlow.Proofs.Condition.RoundTrip
import GuardedFlow.Proofs.Condition.Respaced
import GuardedFlow.Proofs.Token.Numeral
import GuardedFlow.Proofs.Predicate.Compiles
import GuardedFlow.Proofs.Engine.Search
import GuardedFlow.Proofs.Flow.Conserved
import GuardedFlow.Proofs.Condition.Folded
import GuardedFlow.Proofs.Operand.Bitwise
import GuardedFlow.Proofs.Predicate.Expanded
import GuardedFlow.Proofs.Predicate.Trichotomy
import GuardedFlow.Proofs.Token.Reread
import GuardedFlow.Proofs.Builder.Places
import GuardedFlow.Proofs.Condition.Places
import GuardedFlow.Proofs.Engine.Checked
import GuardedFlow.Proofs.Field.Registry
import GuardedFlow.Proofs.Encoding.Fields
import GuardedFlow.Proofs.Encoding.Tree
import GuardedFlow.Proofs.Json.Documents
import GuardedFlow.Proofs.Encoding.Recovers
import GuardedFlow.Proofs.Operand.Climbing
import GuardedFlow.Proofs.Builder.Discipline
import GuardedFlow.Proofs.Builder.Internal
