import GraphWrites.Attempt
import GraphWrites.Ledger
import GraphWrites.Statement
import GraphWrites.Variable

namespace GraphWrites

open Std

structure Link where
  source : Variable
  type : String
  target : Variable
deriving DecidableEq, Repr

namespace Link

def order : Link → Link → Ordering :=
  compareLex (compareOn source) (compareLex (compareOn type) (compareOn target))

instance : Ord Link := ⟨order⟩

instance : TransOrd Link := inferInstanceAs (TransCmp (compareLex _ (compareLex _ _)))

instance : LawfulEqOrd Link where
  eq_of_compare {a b} h := by
    change order a b = .eq at h
    simp only [order, compareLex, compareOn, Ordering.then_eq_eq, LawfulEqCmp.compare_eq_iff_eq] at h
    cases a; cases b
    simpa only [mk.injEq] using h

end Link

structure IdentityRow where
  reference : String
  id : UInt64
deriving DecidableEq, Repr

/-- What one save knows: the objects and edges it has come upon and, once it has been compiled, its statements and the ids
the database reports for them. -/
structure Journal where
  visited : SortedMap Entity Variable
  visitedEdges : SortedSet EdgeId
  ledger : Ledger
  /-- New edges by their ends, so that both ends can ask for the same one. -/
  links : SortedMap Link Variable
  created : SortedMap Variable Entity
  ids : SortedMap Variable UInt64
  returned : SortedSet Variable
  statements : List Statement

namespace Journal

def empty : Journal := ⟨∅, ∅, .empty, ∅, ∅, ∅, ∅, []⟩

instance : Inhabited Journal := ⟨empty⟩

def visit (j : Journal) (e : Entity) (v : Variable) : Journal := { j with visited := j.visited.insert e v }

def forgetVisits (j : Journal) (v : Variable) : Journal :=
  { j with visited := j.visited.filter fun _ w => w != v }

def visitEdge (j : Journal) (e : EdgeId) : Journal := { j with visitedEdges := j.visitedEdges.insert e }

def addLink (j : Journal) (l : Link) (v : Variable) : Journal := { j with links := j.links.insert l v }

def forgetLinks (j : Journal) (v : Variable) : Journal := { j with links := j.links.filter fun _ w => w != v }

def addCreated (j : Journal) (v : Variable) (e : Entity) : Journal := { j with created := j.created.insert v e }

def forgetCreated (j : Journal) (v : Variable) : Journal := { j with created := j.created.erase v }

def forgetEdge (j : Journal) (v : Variable) : Journal := ((j.forgetLinks v).forgetCreated v).forgetVisits v

def setId (j : Journal) (v : Variable) (id : UInt64) : Journal := { j with ids := j.ids.insert v id }

/-- The variable of a reported row, if the statements return it. -/
def reported (j : Journal) (row : IdentityRow) : Except Failure (Variable × UInt64) :=
  match (Variable.ofText? row.reference).filter j.returned.contains with
  | some v => .ok (v, row.id)
  | none => .error (.unknownReference row.reference)

def takeId (entry : Variable × UInt64) : Attempt Journal (Option (Entity × UInt64)) := do
  modify (·.setId entry.1 entry.2)
  return ((← get).created.get? entry.1).map (·, entry.2)

/-- Takes in the ids the database reports, a later row over an earlier one for the same variable.
Answers the created objects among them with their ids, by variable. A row that names no returned
variable refuses them all, so that all rows are read before the first id is set. -/
def takeIds (rows : List IdentityRow) : Attempt Journal (List (Entity × UInt64)) := do
  let read ← rows.mapM fun row => do (← get).reported row
  let ids : SortedMap Variable UInt64 := .ofList read
  ids.entries.filterMapM takeId

def applyIds (j : Journal) (rows : List IdentityRow) : Except Failure (List (Entity × UInt64) × Journal) :=
  (takeIds rows).outcome j

end Journal

end GraphWrites
