import GraphWrites.Edge
import GraphWrites.SortedMap

namespace GraphWrites

/-- Clears the edges of one type at one node, as far as the object at the other end has a kind. -/
inductive Clearing where
  | outgoing (node : NodeId) (type : String) (targetKind : EntityKind)
  /-- An edge that is an object of its own has the kind of its own object as its target kind, and
  is compared by that. -/
  | incoming (node : NodeId) (type : String) (kind : EntityKind) (asObject : Bool)
deriving DecidableEq, Repr

namespace Clearing

def direction : Clearing → Direction
  | outgoing .. => .outgoing
  | incoming .. => .incoming

def selects : Clearing → EdgeRecord → Bool
  | outgoing node type kind, r => r.source == node && r.type == type && r.targetKind == kind
  | incoming node type kind asObject, r =>
    r.target == node && r.type == type && (if asObject then r.targetKind else r.sourceKind) == kind

end Clearing

/-- Edges believed to be stored, and edges to be deleted with the side they were cleared from. -/
structure Ledger where
  present : SortedSet EdgeRecord
  removed : SortedMap EdgeRecord Direction
  conflicts : Nat
deriving DecidableEq

namespace Ledger

def empty : Ledger := ⟨∅, ∅, 0⟩

instance : Inhabited Ledger := ⟨empty⟩

def register (l : Ledger) (r : EdgeRecord) : Ledger :=
  { l with
    removed := l.removed.filter fun s _ => s.triple != r.triple
    present := l.present.insert r }

def forget (l : Ledger) (r : EdgeRecord) : Bool × Ledger :=
  (l.present.contains r, { l with present := l.present.erase r })

def restore (l : Ledger) (t : Triple) : Ledger :=
  { l with
    present := l.present.insertMany (l.removed.keys.filter fun r => r.triple == t)
    removed := l.removed.filter fun r _ => r.triple != t }

def removedFrom (l : Ledger) (d : Direction) (t : Triple) : Bool :=
  l.removed.entries.any fun e => e.2 == d && e.1.triple == t

/-- Schedules the deletion of a record or, if its triple is already scheduled from this side, keeps
the record and counts a conflict. Answers whether the deletion was scheduled. -/
def withdraw (d : Direction) (l : Ledger) (r : EdgeRecord) : Bool × Ledger :=
  if l.removedFrom d r.triple then
    (false, { l with present := l.present.insert r, conflicts := l.conflicts + 1 })
  else
    (true, { l with removed := l.removed.insert r d })

def reinstate (l : Ledger) (r : EdgeRecord) : Ledger :=
  { l with
    removed := l.removed.erase r
    present := l.present.insert r
    conflicts := l.conflicts + 1 }

/-- Withdraws the records a clearing selects and reinstates those it had removed before. Answers
true if it selected nothing, or if some deletion was scheduled. -/
def clear (l : Ledger) (c : Clearing) : Bool × Ledger :=
  let selected := l.present.toList.filter c.selects
  let repeated := (l.removed.filter fun r d => d == c.direction && c.selects r).keys
  if selected.isEmpty && repeated.isEmpty then
    (true, l)
  else
    let rest := { l with present := l.present.filter fun r => !c.selects r }
    let (scheduled, cleared) := selected.foldl (fun (scheduled, l) r =>
      let (moved, l) := l.withdraw c.direction r
      (scheduled || moved, l)) (false, rest)
    (scheduled, repeated.foldl reinstate cleared)

end Ledger

end GraphWrites
