import Criteria.Clause
import Criteria.Document.Filter
import Criteria.Document.Options
import Criteria.Filter.Builder
import Criteria.Predicate
import Criteria.Schema.Positions
import Criteria.Proofs.Combination.Assembly
import Criteria.Proofs.Combination.Schedule
import Criteria.Proofs.Combination.Opening
import Criteria.Proofs.Fitting
import Criteria.Proofs.Rendering
import Criteria.Proofs.Predicate.Compilation
import Criteria.Proofs.Predicate.Meaning
import Criteria.Proofs.Predicate.Appending
import Criteria.Proofs.Predicate.Pruning
import Criteria.Proofs.Accessor
import Criteria.Proofs.Clause.Binding
import Criteria.Proofs.Clause.Generation
import Criteria.Proofs.Clause.Agreement
import Criteria.Proofs.Clause.Placeholders
import Criteria.Proofs.Number.Ratio
import Criteria.Proofs.Number.Shortest
import Criteria.Proofs.Number.Layout
import Criteria.Proofs.Number.Written
import Criteria.Proofs.Json.Tokens
import Criteria.Proofs.Json.RoundTrip
import Criteria.Proofs.Document.Value
import Criteria.Proofs.Document.Filter
import Criteria.Proofs.Document.RoundTrip
import Criteria.Proofs.Clause.Independence
import Criteria.Proofs.Comparison
import Criteria.Proofs.Clause.Fulfilment
import Criteria.Proofs.Predicate.Transfer
import Criteria.Proofs.Number.Text
import Criteria.Proofs.Text.Quoted
import Criteria.Proofs.Predicate.Readability
import Criteria.Proofs.Clause.Readability
import Criteria.Proofs.Writes
import Criteria.Proofs.Registration
import Criteria.Proofs.Combination.Repetition
import Criteria.Proofs.Predicate.Repetition
import Criteria.Proofs.Combination.Continuation
import Criteria.Proofs.Continuation
import Criteria.Proofs.Predicate.Monotonicity
import Criteria.Proofs.Combination.Exchange
import Criteria.Proofs.Exchange
import Criteria.Proofs.Ordering
import Criteria.Proofs.Predicate.Single
import Criteria.Proofs.Number.NearestInteger
import Criteria.Proofs.Number.NearestNumber
import Criteria.Proofs.Narrowing
import Criteria.Proofs.Conversion
import Criteria.Proofs.Text.Blank
import Criteria.Proofs.Number.Spelling
import Criteria.Proofs.Reading
import Criteria.Proofs.Predicate.TextForm
import Criteria.Proofs.Number.Monotone
import Criteria.Proofs.Predicate.Threshold
import Criteria.Proofs.Document.Forms
import Criteria.Proofs.Document.Acceptance
import Criteria.Proofs.Document.Rejection
import Criteria.Proofs.Combination.Lockstep
import Criteria.Proofs.Calls
import Criteria.Proofs.Blame
import Criteria.Proofs.Building
import Criteria.Proofs.Clause.Writing
import Criteria.Proofs.Number.Bounds
