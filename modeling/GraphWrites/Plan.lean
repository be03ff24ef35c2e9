import GraphWrites.Config
import GraphWrites.Intent.Edge
import GraphWrites.Intent.Node
import GraphWrites.Journal
import GraphWrites.Variable.Supply

namespace GraphWrites

/-- What a save is to write. Each request answers the variable under which its intent stands, and a repeated request for
the same object answers the same variable. -/
structure Plan where
  config : Config
  supply : Supply
  journal : Journal
  nodes : SortedMap Variable NodeIntent
  edges : SortedMap Variable EdgeIntent
  storedEdges : SortedMap EdgeId Variable

namespace Plan

def ofConfig (c : Config) : Plan := ⟨c, .new c.poolCapacity, .empty, ∅, ∅, ∅⟩

def new (c : Config) : Except Failure Plan := c.validate.map ofConfig

instance : Inhabited Plan := ⟨ofConfig .default⟩

def takeVariable (p : Plan) (note : Journal → Variable → Journal) : Variable × Plan :=
  let (v, supply) := p.supply.take
  (v, { p with supply, journal := note p.journal v })

def addNode (p : Plan) (v : Variable) (n : NodeIntent) : Plan := { p with nodes := p.nodes.insertIfNew v n }

def addEdge (p : Plan) (v : Variable) (e : EdgeIntent) : Plan := { p with edges := p.edges.insertIfNew v e }

def visitedNode? (p : Plan) (e : Entity) : Option Variable := (p.journal.visited.get? e).filter p.nodes.contains

def visitedEdge? (p : Plan) (e : Entity) : Option Variable := (p.journal.visited.get? e).filter p.edges.contains

def newNode (p : Plan) (e : Entity) : Variable × Plan :=
  match p.visitedNode? e with
  | some v => (v, p)
  | none =>
    let (v, p) := p.takeVariable fun j v => (j.visit e v).addCreated v e
    (v, p.addNode v (.new e))

def storedNode (p : Plan) (e : Entity) (n : NodeId) : Variable × Plan :=
  match p.visitedNode? e with
  | some v => (v, p)
  | none =>
    let (v, supply) := p.supply.takeFor n
    let p := { p with supply, journal := p.journal.visit e v }
    (v, p.addNode v (.stored n))

def editNode (p : Plan) (v : Variable) (edits : List NodeEdit) : Plan :=
  { p with nodes := p.nodes.modify v fun n => n.editAll edits }

def newEdge (p : Plan) (type : String) : Variable × Plan :=
  let (v, p) := p.takeVariable fun j _ => j
  (v, p.addEdge v (.create { type }))

/-- The new edge that joins two nodes. Asked for from either end, it is the same one. -/
def connect (p : Plan) (source : Variable) (type : String) (target : Variable) (d : Direction) : Variable × Plan :=
  let (first, last) := d.orient source target
  let link : Link := ⟨first, type, last⟩
  match (p.journal.links.get? link).filter p.edges.contains with
  | some v => (v, p)
  | none =>
    let (v, p) := p.takeVariable fun j v => j.addLink link v
    (v, p.addEdge v (.create { type, source := some source, target := some target, direction := d }))

def edgeObject (p : Plan) (e : Entity) (type : String) : Variable × Plan :=
  match p.visitedEdge? e with
  | some v => (v, p)
  | none =>
    let (v, p) := p.takeVariable fun j v => (j.visit e v).addCreated v e
    (v, p.addEdge v (.create { type, entity := some e }))

def edgePair (p : Plan) (type : String) : Variable × Plan :=
  let (v, p) := p.takeVariable fun j _ => j
  let (reverse, p) := p.takeVariable fun j _ => j
  (v, p.addEdge v (.pair { reverse, type }))

def storedEdge (p : Plan) (e : EdgeId) (type : String) : Variable × Plan :=
  match (p.storedEdges.get? e).filter p.edges.contains with
  | some v => (v, p)
  | none =>
    let (v, p) := p.takeVariable fun j _ => j.visitEdge e
    let p := { p with storedEdges := p.storedEdges.insert e v }
    (v, p.addEdge v (.patch { type, edge := e }))

def editEdge (p : Plan) (v : Variable) (edits : List EdgeEdit) : Plan :=
  { p with edges := p.edges.modify v fun e => e.editAll edits }

def release (p : Plan) (v : Variable) : Bool × Plan :=
  match p.edges.get? v with
  | none => (false, p)
  | some e =>
    let vs := e.owned v
    (true, { p with
      supply := p.supply.releaseAll vs
      journal := vs.foldl Journal.forgetEdge p.journal
      edges := p.edges.erase v
      storedEdges := match e with
        | .patch e => p.storedEdges.erase e.edge
        | _ => p.storedEdges })

/-- Takes the intent for a stored node back, unless an edge intent refers to it. -/
def unmap (p : Plan) (v : Variable) : Bool × Plan :=
  let free := match p.nodes.get? v with
    | some (.update _) => p.edges.values.all fun e => !e.touches v
    | _ => false
  if free then
    (true, { p with
      supply := (p.supply.release v).2
      journal := p.journal.forgetVisits v
      nodes := p.nodes.erase v })
  else
    (false, p)

def persisted? (p : Plan) (v : Option Variable) : Option NodeId := (v.bind p.nodes.get?).bind NodeIntent.node?

def persistedEnds (p : Plan) (e : NewEdge) : Option NodeId × Option NodeId :=
  e.direction.orient (p.persisted? e.source) (p.persisted? e.target)

def createsTriple (p : Plan) (t : Triple) : EdgeIntent → Bool
  | .create e => e.type == t.type && p.persistedEnds e == (some t.source, some t.target)
  | _ => false

/-- Deletes a stored edge. A pending creation of the same edge is taken back instead, and then there
is no variable to answer. -/
def unrelate (p : Plan) (t : Triple) (e : Option EdgeId) : Option Variable × Plan :=
  match p.edges.entries.find? fun entry => p.createsTriple t entry.2 with
  | some (v, _) => (none, (p.release v).2)
  | none =>
    let (v, p) := p.takeVariable fun j _ => j
    (some v, { p with edges := p.edges.insert v (.delete ⟨t, e⟩) })

def dependsOnNewNodes (p : Plan) : Bool :=
  p.edges.values.any fun e =>
    match e.endpoints? with
    | some (source, target) =>
      [source, target].any fun v => ((v.bind p.nodes.get?).map NodeIntent.isNew).getD false
    | none => false

end Plan

end GraphWrites
