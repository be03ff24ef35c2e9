import GraphWrites.Ids
import GraphWrites.Value

namespace GraphWrites

structure NewNode where
  entity : Entity
  labels : SortedSet String
  props : PropertyRow
  primaryKey : Option String

/-- Changes to a stored node. Labels stand in the order they were first named. -/
structure StoredNode where
  node : NodeId
  labels : List String
  removedLabels : List String
  props : PropertyRow

inductive NodeIntent where
  | create (n : NewNode)
  | update (n : StoredNode)

inductive NodeEdit where
  | addLabel (label : String)
  | removeLabel (label : String)
  | setProperty (key : String) (value : Value)
  | mergeOn (key : String)

namespace NodeIntent

def new (e : Entity) : NodeIntent := create ⟨e, ∅, ∅, none⟩

def stored (n : NodeId) : NodeIntent := update ⟨n, [], [], ∅⟩

def addOnce (labels : List String) (label : String) : List String :=
  if labels.contains label then labels else labels ++ [label]

/-- A new node has no labels to remove, and a stored node has an id to be found by. Such edits are
ignored. -/
def edit : NodeIntent → NodeEdit → NodeIntent
  | create n, .addLabel l => create { n with labels := n.labels.insert l }
  | create n, .removeLabel _ => create n
  | create n, .setProperty k v => create { n with props := n.props.insert k v }
  | create n, .mergeOn k => create { n with primaryKey := some k }
  | update n, .addLabel l => update { n with labels := addOnce n.labels l }
  | update n, .removeLabel l => update { n with removedLabels := addOnce n.removedLabels l }
  | update n, .setProperty k v => update { n with props := n.props.insert k v }
  | update n, .mergeOn _ => update n

def editAll (n : NodeIntent) (edits : List NodeEdit) : NodeIntent := edits.foldl edit n

def isNew : NodeIntent → Bool
  | create _ => true
  | update _ => false

def node? : NodeIntent → Option NodeId
  | create _ => none
  | update n => some n.node

def props : NodeIntent → PropertyRow
  | create n => n.props
  | update n => n.props

def hasChanges : NodeIntent → Bool
  | create _ => true
  | update n => !n.labels.isEmpty || !n.removedLabels.isEmpty || !n.props.isEmpty

end NodeIntent

end GraphWrites
