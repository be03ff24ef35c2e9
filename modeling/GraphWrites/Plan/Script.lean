import GraphWrites.Intent.Edge
import GraphWrites.Intent.Node
import GraphWrites.Query

namespace GraphWrites

/-- A script under way. It keeps the variables that its clauses have introduced, because a clause that reads must carry
them on, and new edges may only join what has been introduced. -/
structure Draft where
  clauses : List Clause
  rows : SortedMap Variable Row
  declared : SortedSet Variable
  returned : SortedSet Variable

namespace Draft

def empty : Draft := ⟨[], ∅, ∅, ∅⟩

def declare (d : Draft) (v : Variable) : Draft := { d with declared := d.declared.insert v }

def createNode (d : Draft) (v : Variable) (n : NewNode) : Except Failure Draft := do
  let labels := n.labels.toList
  let (clause, key) ← match n.primaryKey with
    | none => .ok (Clause.create v labels, none)
    | some k =>
      match n.props.get? k with
      | some value => .ok (Clause.merge v labels k, some value)
      | none => .error (.missingPrimaryKey v.text k)
  return { d.declare v with
    clauses := d.clauses ++ [clause]
    rows := d.rows.insert v (.created key n.props)
    returned := d.returned.insert v }

def storedClauses (v : Variable) (n : StoredNode) : List Clause :=
  .locate v ::
    (if n.removedLabels.isEmpty then [] else [.removeLabels v n.removedLabels]) ++
    (if n.labels.isEmpty then [] else [.addLabels v n.labels]) ++
    (if n.props.isEmpty then [] else [.patch v])

def updateNode (d : Draft) (v : Variable) (n : StoredNode) : Draft :=
  let carried := if d.declared.isEmpty then [] else [Clause.carry d.declared.toList]
  { d.declare v with
    clauses := d.clauses ++ carried ++ storedClauses v n
    rows := d.rows.insert v (.stored n.node n.props) }

def addNode (d : Draft) (entry : Variable × NodeIntent) : Except Failure Draft :=
  match entry.2 with
  | .create n => d.createNode entry.1 n
  | .update n => .ok (d.updateNode entry.1 n)

def endpoint (d : Draft) (v : Variable) (type : String) (edgeEnd : EdgeEnd) (node : Option Variable) :
    Except Failure Variable :=
  match node.filter d.declared.contains with
  | some node => .ok node
  | none => .error (.unresolvedEndpoint v.text type edgeEnd)

/-- Creates an edge. Only an edge with properties has a row of its own. -/
def connect (d : Draft) (singleton : Bool) (v source target : Variable) (type : String) (props : PropertyRow)
    (direction : Direction) : Draft :=
  { d.declare v with
    clauses := d.clauses ++ [.connect singleton v source target type props.keys direction]
    rows := if props.isEmpty then d.rows else d.rows.insert v (.edge props)
    returned := d.returned.insert v }

def addEdge (d : Draft) (entry : Variable × EdgeIntent) : Except Failure Draft :=
  let (v, intent) := entry
  match intent with
  | .create e => do
    let source ← d.endpoint v e.type .source e.source
    let target ← d.endpoint v e.type .target e.target
    return d.connect e.singleton v source target e.type e.props e.direction
  | .pair e => do
    let source ← d.endpoint v e.type .source e.source
    let target ← d.endpoint v e.type .target e.target
    return (d.connect false v source target e.type e.props .outgoing).connect false e.reverse target source e.type
      e.props .outgoing
  | _ => .ok d

def script? (d : Draft) : Option Query :=
  if d.clauses.isEmpty then none
  else
    let report := if d.returned.isEmpty then [] else [Clause.report d.returned.toList]
    some (.script (d.clauses ++ report) d.rows)

end Draft

end GraphWrites
