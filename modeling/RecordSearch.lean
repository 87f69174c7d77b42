import RecordSearch.Dialect.Document
import RecordSearch.Matching
import RecordSearch.Plan.Evaluation
import RecordSearch.Proofs.Compilation
import RecordSearch.Proofs.Failure
import RecordSearch.Proofs.Growth
import RecordSearch.Proofs.Intersection
import RecordSearch.Proofs.Isolation
import RecordSearch.Proofs.Narrowing
import RecordSearch.Proofs.Numbering
import RecordSearch.Proofs.Planning
import RecordSearch.Proofs.Rereading
import RecordSearch.Proofs.Sanitizing
import RecordSearch.SortedBy.Lookup
import RecordSearch.Workbench
import RecordSearch.Proofs.Outcome
import RecordSearch.Proofs.Classification
import RecordSearch.Proofs.Algebra
import RecordSearch.Proofs.Composition
import RecordSearch.Proofs.Addressing
import RecordSearch.Proofs.IdText
import RecordSearch.Proofs.Acceptance
import RecordSearch.Proofs.Log
import RecordSearch.Proofs.Scanning
import RecordSearch.Proofs.Bindings
