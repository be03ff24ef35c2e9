import GraphWrites.Plan.Batch
import GraphWrites.Plan.Endpoints
import GraphWrites.Plan.Script

namespace GraphWrites

/-- The queries that carry a plan out, in the order in which they are to run. -/
structure Rendering where
  queries : List Query
  returned : SortedSet Variable
  batched : Bool

namespace Rendering

def statements (r : Rendering) : Except Failure (List Statement) := r.queries.mapM Query.statement

end Rendering

namespace Plan

def patchRow? : EdgeIntent → Option (String × PatchRow)
  | .patch e => if e.props.isEmpty then none else some (e.type, ⟨e.edge, e.props⟩)
  | _ => none

def patches (intents : List EdgeIntent) : List Query :=
  (groupByKey Prod.fst (intents.filterMap patchRow?)).map fun (type, rows) => .patch type (rows.map Prod.snd)

def deletion? : EdgeIntent → Option DeletedEdge
  | .delete e => some e
  | _ => none

/-- Repeated deletions of a triple are one deletion. The first known id counts. -/
def addDeletion (m : SortedMap Triple (Option EdgeId)) (d : DeletedEdge) : SortedMap Triple (Option EdgeId) :=
  m.insert d.triple (((m.get? d.triple).getD none).or d.edge)

def deletionsByTriple (ds : List DeletedEdge) : SortedMap Triple (Option EdgeId) := ds.foldl addDeletion ∅

def deletionsOfType (type : String) (ds : List (Triple × Option EdgeId)) : List Query :=
  let between := ds.filterMap fun (t, e) => if e.isNone then some (t.source, t.target) else none
  let byId := ds.filterMap Prod.snd
  (if between.isEmpty then [] else [.deleteBetween type between]) ++
    (if byId.isEmpty then [] else [.deleteById type byId])

def deletions (ds : List DeletedEdge) : List Query :=
  (groupByKey (fun d : Triple × Option EdgeId => d.1.type) (deletionsByTriple ds).entries).flatMap fun (type, ds) =>
    deletionsOfType type ds

def writtenEdges (p : Plan) (skipped : SortedSet Variable) : SortedMap Variable EdgeIntent :=
  p.edges.filter fun v e => !skipped.contains v && !p.isSuperseded e

def joined (edges : List EdgeIntent) : List Variable :=
  edges.flatMap fun e =>
    match e.endpoints? with
    | some (source, target) => source.toList ++ target.toList
    | none => []

/-- The nodes a script introduces: new ones first, then stored ones that change or that an edge joins. -/
def writtenNodes (p : Plan) (edges : List EdgeIntent) : List (Variable × NodeIntent) :=
  let nodes := p.nodes.entries
  (nodes.filter fun (_, n) => n.isNew) ++
    nodes.filter fun (v, n) => !n.isNew && (n.hasChanges || (joined edges).contains v)

def renderSingly (p : Plan) (skipped : SortedSet Variable) : Except Failure Rendering := do
  let edges := p.writtenEdges skipped
  let draft ← (p.writtenNodes edges.values).foldlM Draft.addNode .empty
  let draft ← edges.entries.foldlM Draft.addEdge draft
  let removals := p.removals.map fun r => (⟨r.triple, r.id⟩ : DeletedEdge)
  return {
    queries := draft.script?.toList ++ patches edges.values ++
      deletions (edges.values.filterMap deletion? ++ removals)
    returned := draft.returned
    batched := false }

def renderBatch (p : Plan) (skipped : SortedSet Variable) : Rendering :=
  let rows := p.linkRows skipped
  { queries := if rows.isEmpty then [] else [.link (linkBlocks rows)]
    returned := .ofList (rows.map fun r => r.2.reference)
    batched := true }

def render (p : Plan) : Except Failure Rendering := do
  let skipped ← p.skipped
  if p.isBatchable then return p.renderBatch skipped else p.renderSingly skipped

def statements (p : Plan) : Except Failure (List Statement) := do (← p.render).statements

def owned (p : Plan) : List Variable :=
  (p.edges.entries.flatMap fun (v, e) => e.owned v) ++ p.nodes.keys

/-- Renders the plan and closes its journal. What is left is an empty plan with all its variables
given back. -/
def finish : Attempt Plan Journal := do
  let rendering ← (← get).render
  let statements ← rendering.statements
  let p ← get
  set { ofConfig p.config with supply := p.supply.releaseAll p.owned }
  return { p.journal with
    ledger := p.recreated.toList.foldl Ledger.restore p.journal.ledger
    returned := rendering.returned
    statements }

def compile (p : Plan) : Except Failure (Journal × Plan) := finish.outcome p

end Plan

end GraphWrites
