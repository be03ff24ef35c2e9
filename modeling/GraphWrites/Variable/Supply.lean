import GraphWrites.Ids
import GraphWrites.SortedMap
import GraphWrites.Variable

namespace GraphWrites

/-- Every index below `fresh` has been taken at least once since the supply was new. -/
structure Supply where
  fresh : Nat
  pooled : SortedSet Variable
  /-- Given back while the pool was full, and never taken again. -/
  retired : SortedSet Variable
  capacity : Nat
  bound : SortedMap NodeId Variable
  live : Nat
deriving DecidableEq

namespace Supply

def new (capacity : Nat) : Supply := ⟨0, ∅, ∅, capacity, ∅, 0⟩

def isOutstanding (s : Supply) (v : Variable) : Bool :=
  v.index < s.fresh && !s.pooled.contains v && !s.retired.contains v

/-- Takes the smallest pooled variable or, if none is pooled, the next fresh one. -/
def take (s : Supply) : Variable × Supply :=
  match s.pooled.min? with
  | some v => (v, { s with pooled := s.pooled.erase v, live := s.live + 1 })
  | none => (⟨s.fresh⟩, { s with fresh := s.fresh + 1, live := s.live + 1 })

def takeFor (s : Supply) (n : NodeId) : Variable × Supply :=
  match s.bound.get? n with
  | some v => (v, s)
  | none =>
    let (v, s) := s.take
    (v, { s with bound := s.bound.insert n v })

def nodeOf (s : Supply) (v : Variable) : Option NodeId :=
  (s.bound.entries.find? fun e => e.2 == v).map Prod.fst

/-- Gives a variable back and unbinds it. Answers false, and does nothing, if it was not outstanding. -/
def release (s : Supply) (v : Variable) : Bool × Supply :=
  if s.isOutstanding v then
    let s := { s with bound := s.bound.filter fun _ w => w != v, live := s.live - 1 }
    if s.pooled.size < s.capacity then
      (true, { s with pooled := s.pooled.insert v })
    else
      (true, { s with retired := s.retired.insert v })
  else
    (false, s)

def releaseAll (s : Supply) (vs : List Variable) : Supply :=
  vs.foldl (fun s v => (s.release v).2) s

def reset (s : Supply) : Supply := new s.capacity

end Supply

end GraphWrites
