import GraphWrites.Plan.Call

namespace GraphWrites

structure Tally where
  renderings : Nat
  statements : Nat
  batched : Nat
  skipped : Nat
deriving DecidableEq, Repr

namespace Tally

def zero : Tally := ⟨0, 0, 0, 0⟩

def count (t : Tally) (p : Plan) : Tally :=
  let t := match p.skipped with
    | .ok vs => { t with skipped := t.skipped + vs.size }
    | .error _ => t
  match p.render with
  | .ok r =>
    { t with
      renderings := t.renderings + 1
      statements := t.statements + r.queries.length
      batched := t.batched + if r.batched then 1 else 0 }
  | .error _ => t

end Tally

structure Session where
  plan : Plan
  finished : List Journal
  tally : Tally

namespace Session

def new (c : Config) : Except Failure Session := do return ⟨← Plan.new c, [], .zero⟩

def renders : PlanCall → Bool
  | .statements | .compile => true
  | _ => false

/-- Makes a call on the plan. A journal that the call finishes joins the finished ones. -/
def call (s : Session) (c : PlanCall) : Except Failure PlanAnswer × Session :=
  let tally := if renders c then s.tally.count s.plan else s.tally
  let (answer, plan) := (Plan.perform c).on s.plan
  let finished := match answer with
    | .ok (.compiled journal) => s.finished ++ [journal]
    | _ => s.finished
  (answer, { plan, finished, tally })

def callFinished (s : Session) (k : Fin s.finished.length) (c : JournalCall) :
    Except Failure JournalAnswer × Session :=
  let (answer, journal) := (Journal.perform c).on s.finished[k]
  (answer, { s with finished := s.finished.set k journal })

def readTally (s : Session) (reset : Bool) : Tally × Session :=
  (s.tally, if reset then { s with tally := .zero } else s)

end Session

end GraphWrites
