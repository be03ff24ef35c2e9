import GraphWrites.Plan

namespace GraphWrites.Plan

def isKnown (p : Plan) (v : Option Variable) : Bool := v.any p.nodes.contains

def unresolvedEnd? (p : Plan) (e : EdgeIntent) : Option EdgeEnd :=
  match e.endpoints? with
  | none => none
  | some (source, target) =>
    if !p.isKnown source then some .source else if !p.isKnown target then some .target else none

def unresolved (p : Plan) : List (Variable × EdgeIntent × EdgeEnd) :=
  p.edges.entries.filterMap fun (v, e) => (p.unresolvedEnd? e).map fun edgeEnd => (v, e, edgeEnd)

/-- The intents that the save leaves out. Unless the settings say so, the first one fails it. -/
def skipped (p : Plan) : Except Failure (SortedSet Variable) :=
  match p.config.policy, p.unresolved with
  | .skip, vs => .ok (.ofList (vs.map Prod.fst))
  | .fail, [] => .ok ∅
  | .fail, (v, e, edgeEnd) :: _ => .error (.unresolvedEndpoint v.text e.type edgeEnd)

end GraphWrites.Plan
