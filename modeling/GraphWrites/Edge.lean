import GraphWrites.Ids

namespace GraphWrites

open Std

/-- Which way an edge points, seen from the object that declares it. -/
inductive Direction where
  | outgoing
  | incoming
deriving DecidableEq, Repr, Inhabited

/-- Puts the two ends in stored order: the first is where the edge starts. -/
def Direction.orient {α : Type} (d : Direction) (a b : α) : α × α :=
  match d with
  | .outgoing => (a, b)
  | .incoming => (b, a)

structure Triple where
  type : String
  source : NodeId
  target : NodeId
deriving DecidableEq, Repr

structure EdgeRecord where
  source : NodeId
  type : String
  target : NodeId
  sourceKind : EntityKind
  targetKind : EntityKind
  id : Option EdgeId
deriving DecidableEq, Repr

namespace Triple

def order : Triple → Triple → Ordering :=
  compareLex (compareOn type) (compareLex (compareOn source) (compareOn target))

instance : Ord Triple := ⟨order⟩

instance : TransOrd Triple := inferInstanceAs (TransCmp (compareLex _ (compareLex _ _)))

instance : LawfulEqOrd Triple where
  eq_of_compare {a b} h := by
    change order a b = .eq at h
    simp only [order, compareLex, compareOn, Ordering.then_eq_eq, LawfulEqCmp.compare_eq_iff_eq] at h
    cases a; cases b
    simpa only [mk.injEq] using h

end Triple

namespace EdgeRecord

def triple (r : EdgeRecord) : Triple := ⟨r.type, r.source, r.target⟩

def order : EdgeRecord → EdgeRecord → Ordering :=
  compareLex (compareOn source) <| compareLex (compareOn type) <| compareLex (compareOn target) <|
    compareLex (compareOn sourceKind) <| compareLex (compareOn targetKind) (compareOn id)

instance : Ord EdgeRecord := ⟨order⟩

instance : TransOrd EdgeRecord :=
  inferInstanceAs (TransCmp (compareLex _ (compareLex _ (compareLex _ (compareLex _ (compareLex _ _))))))

instance : LawfulEqOrd EdgeRecord where
  eq_of_compare {a b} h := by
    change order a b = .eq at h
    simp only [order, compareLex, compareOn, Ordering.then_eq_eq, LawfulEqCmp.compare_eq_iff_eq] at h
    cases a; cases b
    simpa only [mk.injEq] using h

end EdgeRecord

end GraphWrites
