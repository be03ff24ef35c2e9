import GraphWrites.Plan

namespace GraphWrites.Plan

/-- The triples that an intent creates between stored nodes, both ways round for a pair. -/
def createdTriples (p : Plan) : EdgeIntent → List Triple
  | .create e =>
    match p.persistedEnds e with
    | (some source, some target) => [⟨e.type, source, target⟩]
    | _ => []
  | .pair e =>
    match p.persisted? e.source, p.persisted? e.target with
    | some source, some target => [⟨e.type, source, target⟩, ⟨e.type, target, source⟩]
    | _, _ => []
  | _ => []

def recreated (p : Plan) : SortedSet Triple := .ofList (p.edges.values.flatMap p.createdTriples)

def isSuperseded (p : Plan) : EdgeIntent → Bool
  | .delete e => p.recreated.contains e.triple
  | _ => false

def removals (p : Plan) : List EdgeRecord :=
  p.journal.ledger.removed.keys.filter fun r => !p.recreated.contains r.triple

end GraphWrites.Plan
