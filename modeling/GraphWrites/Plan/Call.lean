import GraphWrites.Journal.Call
import GraphWrites.Plan.Rendering

namespace GraphWrites

inductive NodeRequest where
  | new (e : Entity)
  | stored (e : Entity) (n : NodeId)
  | under (v : Variable)
deriving DecidableEq, Repr

inductive EdgeRequest where
  | new (type : String)
  | connect (source : Variable) (type : String) (target : Variable) (d : Direction)
  | object (e : Entity) (type : String)
  | pair (type : String)
  | stored (e : EdgeId) (type : String)
  | under (v : Variable)
deriving DecidableEq, Repr

inductive PlanCall where
  | node (request : NodeRequest) (edits : List NodeEdit)
  | edge (request : EdgeRequest) (edits : List EdgeEdit)
  | unrelate (t : Triple) (e : Option EdgeId)
  | nodeUnder (v : Variable)
  | edgeUnder (v : Variable)
  | touches (v node : Variable)
  | release (v : Variable)
  | unmap (v : Variable)
  | statements
  | compile
  | config
  | journal (c : JournalCall)

inductive PlanAnswer where
  | flag (b : Option Bool)
  | variable (v : Option Variable)
  | node (n : Option NodeIntent)
  | edge (e : Option EdgeIntent)
  | statements (ss : List Statement)
  | compiled (finished : Journal)
  | config (c : Config)
  | journal (a : JournalAnswer)

namespace Plan

def requestNode (p : Plan) : NodeRequest → Option Variable × Plan
  | .new e => (p.newNode e).map some id
  | .stored e n => (p.storedNode e n).map some id
  | .under v => (if p.nodes.contains v then some v else none, p)

def requestEdge (p : Plan) : EdgeRequest → Option Variable × Plan
  | .new type => (p.newEdge type).map some id
  | .connect source type target d => (p.connect source type target d).map some id
  | .object e type => (p.edgeObject e type).map some id
  | .pair type => (p.edgePair type).map some id
  | .stored e type => (p.storedEdge e type).map some id
  | .under v => (if p.edges.contains v then some v else none, p)

/-- An attempt on the journal of a plan, which keeps what it did there even where it fails. -/
def onJournal {α : Type} (x : Attempt Journal α) : Attempt Plan α :=
  .mk fun p =>
    let (result, journal) := x.on p.journal
    (result, { p with journal })

def perform : PlanCall → Attempt Plan PlanAnswer
  | .node request edits => modifyGet fun p =>
    match p.requestNode request with
    | (some v, p) => (.variable (some v), p.editNode v edits)
    | (none, p) => (.variable none, p)
  | .edge request edits => modifyGet fun p =>
    match p.requestEdge request with
    | (some v, p) => (.variable (some v), p.editEdge v edits)
    | (none, p) => (.variable none, p)
  | .unrelate t e => modifyGet fun p => (p.unrelate t e).map .variable id
  | .nodeUnder v => modifyGet fun p => (.node (p.nodes.get? v), p)
  | .edgeUnder v => modifyGet fun p => (.edge (p.edges.get? v), p)
  | .touches v node => modifyGet fun p => (.flag ((p.edges.get? v).map fun e => e.touches node), p)
  | .release v => modifyGet fun p => (p.release v).map (fun b => .flag (some b)) id
  | .unmap v => modifyGet fun p => (p.unmap v).map (fun b => .flag (some b)) id
  | .statements => do return .statements (← (← get).statements)
  | .compile => do return .compiled (← finish)
  | .config => modifyGet fun p => (.config p.config, p)
  | .journal c => do return .journal (← onJournal (Journal.perform c))

def call (p : Plan) (c : PlanCall) : Except Failure (PlanAnswer × Plan) := (perform c).outcome p

end Plan

end GraphWrites
