import GraphWrites.Plan.Recreation
import GraphWrites.Query

namespace GraphWrites.Plan

def isPlainCreation : EdgeIntent → Bool
  | .create e => !e.needsOwnClause
  | _ => false

def isBatchable (p : Plan) : Bool :=
  p.config.batch && p.removals.isEmpty && (p.nodes.values.all fun n => !n.hasChanges) &&
    (p.edges.values.all fun e => isPlainCreation e || p.isSuperseded e) && p.edges.values.any isPlainCreation

structure LinkGroup where
  type : String
  singleton : Bool
deriving DecidableEq, Repr

namespace LinkGroup

open Std

def order : LinkGroup → LinkGroup → Ordering := compareLex (compareOn type) (compareOn singleton)

instance : Ord LinkGroup := ⟨order⟩

instance : TransOrd LinkGroup := inferInstanceAs (TransCmp (compareLex _ _))

instance : LawfulEqOrd LinkGroup where
  eq_of_compare {a b} h := by
    change order a b = .eq at h
    simp only [order, compareLex, compareOn, Ordering.then_eq_eq, LawfulEqCmp.compare_eq_iff_eq] at h
    cases a; cases b
    simpa only [mk.injEq] using h

end LinkGroup

def linkRow? (p : Plan) (v : Variable) : EdgeIntent → Option (LinkGroup × LinkRow)
  | .create e =>
    match p.persistedEnds e with
    | (some source, some target) => some (⟨e.type, e.singleton⟩, ⟨source, target, v⟩)
    | _ => none
  | _ => none

def linkRows (p : Plan) (skipped : SortedSet Variable) : List (LinkGroup × LinkRow) :=
  (p.edges.filter fun v _ => !skipped.contains v).entries.filterMap fun (v, e) => p.linkRow? v e

/-- Gives each group a parameter that no group before it has. -/
def addBlock (blocks : List LinkBlock) (group : LinkGroup × List (LinkGroup × LinkRow)) : List LinkBlock :=
  let (key, rows) := group
  blocks ++ [{
    parameter := Name.fresh (Name.rowsParameter key.type) (blocks.map LinkBlock.parameter)
    type := key.type
    singleton := key.singleton
    rows := rows.map Prod.snd }]

def linkBlocks (rows : List (LinkGroup × LinkRow)) : List LinkBlock :=
  (groupByKey Prod.fst rows).foldl addBlock []

end GraphWrites.Plan
