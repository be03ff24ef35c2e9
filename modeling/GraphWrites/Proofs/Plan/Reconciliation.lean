import GraphWrites.Proofs.Plan.Creation
import GraphWrites.Proofs.Plan.Deletion
import GraphWrites.Proofs.Plan.Variables

namespace GraphWrites

namespace Ledger

end Ledger

namespace Plan

variable {p : Plan} {skipped : SortedSet Variable}

end Plan

end GraphWrites
