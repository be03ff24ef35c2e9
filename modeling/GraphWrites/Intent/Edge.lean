import GraphWrites.Edge
import GraphWrites.Value
import GraphWrites.Variable

namespace GraphWrites

structure NewEdge where
  type : String
  source : Option Variable := none
  target : Option Variable := none
  props : PropertyRow := ∅
  singleton : Bool := true
  /-- `incoming` says that the stored edge starts at the target. -/
  direction : Direction := .outgoing
  entity : Option Entity := none

structure StoredEdge where
  type : String
  edge : EdgeId
  props : PropertyRow := ∅

structure DeletedEdge where
  triple : Triple
  edge : Option EdgeId
deriving DecidableEq, Repr

structure EdgePair where
  reverse : Variable
  type : String
  source : Option Variable := none
  target : Option Variable := none
  props : PropertyRow := ∅

inductive EdgeIntent where
  | create (e : NewEdge)
  | patch (e : StoredEdge)
  | delete (e : DeletedEdge)
  | pair (e : EdgePair)

inductive EdgeEdit where
  | setProperty (key : String) (value : Value)
  | relate (source target : Variable)
  | orient (d : Direction)
  | setSingleton (b : Bool)

namespace NewEdge

/-- Edges that are objects or have properties do not fit the rows of a batch. -/
def needsOwnClause (e : NewEdge) : Bool := e.entity.isSome || !e.props.isEmpty

def ends (e : NewEdge) : Option Variable × Option Variable := e.direction.orient e.source e.target

end NewEdge

namespace EdgeIntent

/-- Edits that make no sense for the kind of intent are ignored: a deletion has no properties, stored
edges keep their ends, and only a single new edge can be turned round or be a singleton. -/
def edit : EdgeIntent → EdgeEdit → EdgeIntent
  | create e, .setProperty k v => create { e with props := e.props.insert k v }
  | create e, .relate a b => create { e with source := some a, target := some b }
  | create e, .orient d => create { e with direction := d }
  | create e, .setSingleton b => create { e with singleton := b }
  | patch e, .setProperty k v => patch { e with props := e.props.insert k v }
  | pair e, .setProperty k v => pair { e with props := e.props.insert k v }
  | pair e, .relate a b => pair { e with source := some a, target := some b }
  | intent, _ => intent

def editAll (e : EdgeIntent) (edits : List EdgeEdit) : EdgeIntent := edits.foldl edit e

def type : EdgeIntent → String
  | create e => e.type
  | patch e => e.type
  | delete e => e.triple.type
  | pair e => e.type

def owned (v : Variable) : EdgeIntent → List Variable
  | pair e => [v, e.reverse]
  | _ => [v]

def endpoints? : EdgeIntent → Option (Option Variable × Option Variable)
  | create e => some (e.source, e.target)
  | pair e => some (e.source, e.target)
  | _ => none

def touches (e : EdgeIntent) (node : Variable) : Bool :=
  match e.endpoints? with
  | some (source, target) => source == some node || target == some node
  | none => false

def props? : EdgeIntent → Option PropertyRow
  | create e => some e.props
  | patch e => some e.props
  | delete _ => none
  | pair e => some e.props

end EdgeIntent

end GraphWrites
