namespace GraphWrites

open Std

structure NodeId where
  val : UInt64
deriving DecidableEq, Repr, Inhabited

structure EdgeId where
  val : UInt64
deriving DecidableEq, Repr, Inhabited

structure Entity where
  key : UInt64
deriving DecidableEq, Repr, Inhabited

structure EntityKind where
  name : String
deriving DecidableEq, Repr, Inhabited

namespace NodeId

def text (n : NodeId) : String := toString n.val

instance : Ord NodeId := ⟨compareOn val⟩

instance : TransOrd NodeId := inferInstanceAs (TransCmp (compareOn val))

instance : LawfulEqOrd NodeId where
  eq_of_compare {a b} h := by
    change compare a.val b.val = .eq at h
    cases a; cases b; exact congrArg mk (LawfulEqCmp.compare_eq_iff_eq.mp h)

end NodeId

namespace EdgeId

def text (e : EdgeId) : String := toString e.val

instance : Ord EdgeId := ⟨compareOn val⟩

instance : TransOrd EdgeId := inferInstanceAs (TransCmp (compareOn val))

instance : LawfulEqOrd EdgeId where
  eq_of_compare {a b} h := by
    change compare a.val b.val = .eq at h
    cases a; cases b; exact congrArg mk (LawfulEqCmp.compare_eq_iff_eq.mp h)

end EdgeId

namespace Entity

def text (e : Entity) : String := "#" ++ toString e.key

instance : Ord Entity := ⟨compareOn key⟩

instance : TransOrd Entity := inferInstanceAs (TransCmp (compareOn key))

instance : LawfulEqOrd Entity where
  eq_of_compare {a b} h := by
    change compare a.key b.key = .eq at h
    cases a; cases b; exact congrArg mk (LawfulEqCmp.compare_eq_iff_eq.mp h)

end Entity

namespace EntityKind

instance : Ord EntityKind := ⟨compareOn name⟩

instance : TransOrd EntityKind := inferInstanceAs (TransCmp (compareOn name))

instance : LawfulEqOrd EntityKind where
  eq_of_compare {a b} h := by
    change compare a.name b.name = .eq at h
    cases a; cases b; exact congrArg mk (LawfulEqCmp.compare_eq_iff_eq.mp h)

end EntityKind

end GraphWrites
