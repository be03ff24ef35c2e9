import GraphWrites.Config.Document
import GraphWrites.Journal.Identity
import GraphWrites.Session
import GraphWrites.Value.Stored
import GraphWrites.Proofs.Ledger.Standing
import GraphWrites.Proofs.Plan.Batch
import GraphWrites.Proofs.Plan.Deletion
import GraphWrites.Proofs.Ledger.Sides
import GraphWrites.Proofs.Variable.Pool
import GraphWrites.Proofs.Plan.Variables
import GraphWrites.Proofs.Plan.Recycling
import GraphWrites.Proofs.Plan.Creation
import GraphWrites.Proofs.Plan.Reconciliation
import GraphWrites.Proofs.Plan.Scope
import GraphWrites.Proofs.Plan.Handshake
import GraphWrites.Proofs.Plan.Indexes
import GraphWrites.Proofs.Plan.Visits
import GraphWrites.Proofs.Plan.Values
import GraphWrites.Proofs.Ledger.Conflicts
import GraphWrites.Proofs.Plan.Failures
import GraphWrites.Proofs.Ledger.Accounting
import GraphWrites.Proofs.Plan.Links
import GraphWrites.Proofs.Plan.Cancellation
import GraphWrites.Proofs.Plan.Marks
import GraphWrites.Proofs.Plan.Undoing
import GraphWrites.Proofs.Plan.Unmapping
import GraphWrites.Proofs.Journal.Rows
import GraphWrites.Proofs.Variable.History
import GraphWrites.Proofs.Query.Quoting
import GraphWrites.Proofs.Plan.Execution
import GraphWrites.Proofs.Value.Stored
import GraphWrites.Proofs.Query.Bytes
import GraphWrites.Proofs.Plan.Blocks
import GraphWrites.Proofs.Variable.Spelling
