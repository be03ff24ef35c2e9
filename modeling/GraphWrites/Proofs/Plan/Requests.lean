import GraphWrites.Proofs.Plan.Indexes

namespace GraphWrites

def Direction.link (d : Direction) (source : Variable) (type : String) (target : Variable) : Link :=
  ⟨(d.orient source target).1, type, (d.orient source target).2⟩

namespace EdgeRequest

def intent? (reverse : Variable) : EdgeRequest → Option EdgeIntent
  | new type => some (.create { type })
  | connect source type target d =>
    some (.create { type, source := some source, target := some target, direction := d })
  | object e type => some (.create { type, entity := some e })
  | pair type => some (.pair { reverse, type })
  | stored e type => some (.patch { type, edge := e })
  | under _ => none

def noted (j : Journal) (v : Variable) : EdgeRequest → Journal
  | connect source type target d => j.addLink (d.link source type target) v
  | object e _ => (j.visit e v).addCreated v e
  | stored e _ => j.visitEdge e
  | new _ | pair _ | under _ => j

def indexed (index : SortedMap EdgeId Variable) (v : Variable) : EdgeRequest → SortedMap EdgeId Variable
  | stored e _ => index.insert e v
  | new _ | connect _ _ _ _ | object _ _ | pair _ | under _ => index

end EdgeRequest

theorem EdgeIntent.unindexed_editAll (index : SortedMap EdgeId Variable) (x : EdgeIntent) (edits : List EdgeEdit) :
    (x.editAll edits).unindexed index = x.unindexed index :=
  editAll_keeps (f := unindexed index) (fun x edit => by cases x <;> cases edit <;> rfl) x edits

theorem Journal.foldl_forgetEdge_eq (vs : List Variable) (j : Journal) : vs.foldl forgetEdge j = { j with
    visited := (vs.foldl forgetEdge j).visited
    links := (vs.foldl forgetEdge j).links
    created := (vs.foldl forgetEdge j).created } := by
  induction vs generalizing j with
  | nil => rfl
  | cons v vs ih => exact ih (j.forgetEdge v)

namespace Plan

def standing? (p : Plan) : EdgeRequest → Option Variable
  | .connect source type target d => (p.journal.links.get? (d.link source type target)).filter p.edges.contains
  | .object e _ => p.visitedEdge? e
  | .stored e _ => (p.storedEdges.get? e).filter p.edges.contains
  | .under v => if p.edges.contains v then some v else none
  | .new _ | .pair _ => none

/-- The request adds an intent under a variable. -/
structure Adds (p : Plan) (request : EdgeRequest) (v : Variable) (x : EdgeIntent) (q : Plan) : Prop where
  unknown : p.standing? request = none
  intent : ∃ reverse, request.intent? reverse = some x
  taken : Supply.Takes p.supply q.supply (x.owned v)
  behind : q = { p with
    supply := q.supply
    journal := request.noted p.journal v
    edges := p.edges.insert v x
    storedEdges := request.indexed p.storedEdges v }

variable {p q : Plan} {v : Variable} {x : EdgeIntent} {request : EdgeRequest}

theorem contains_of_standing (stands : p.standing? request = some v) : p.edges.contains v = true := by
  cases request with
  | connect => exact (Option.filter_eq_some_iff.mp stands).2
  | object => exact (Option.filter_eq_some_iff.mp stands).2
  | stored => exact (Option.filter_eq_some_iff.mp stands).2
  | under w =>
    rw [standing?, Option.ite_none_right_eq_some] at stands
    obtain ⟨known, same⟩ := stands
    exact Option.some_inj.mp same ▸ known
  | new => cases stands
  | pair => cases stands

theorem requestEdge_of_standing (stands : p.standing? request = some v) : p.requestEdge request = (some v, p) := by
  cases request with
  | connect source type target d =>
    rw [standing?, Direction.link] at stands
    rw [requestEdge, connect]
    dsimp only
    rw [stands]
    rfl
  | object e type =>
    rw [standing?] at stands
    rw [requestEdge, edgeObject, stands]
    rfl
  | stored e type =>
    rw [standing?] at stands
    rw [requestEdge, storedEdge, stands]
    rfl
  | under w =>
    rw [standing?] at stands
    rw [requestEdge, stands]
  | new => cases stands
  | pair => cases stands

namespace Owned

theorem adds (owned : p.Owned) (unknown : p.standing? request = none) (asks : ∀ w, request ≠ .under w) :
    ∃ x, (p.requestEdge request).1 = some p.supply.take.1 ∧ p.Adds request p.supply.take.1 x (p.requestEdge request).2 := by
  have free := owned.edges_of_free p.supply.isOutstanding_take_self
  have inserted : ∀ x, p.edges.insertIfNew p.supply.take.1 x = p.edges.insert p.supply.take.1 x := fun x =>
    SortedMap.insertIfNew_of_get?_eq_none x free
  have taken := Supply.takes_one owned.sound
  cases request with
  | new type =>
    refine ⟨_, rfl, unknown, ⟨⟨0⟩, rfl⟩, taken, ?_⟩
    rw [← inserted]
    rfl
  | connect source type target d =>
    have absent := unknown
    rw [standing?, Direction.link] at absent
    rw [Plan.requestEdge, Plan.connect]
    dsimp only
    rw [absent]
    refine ⟨_, rfl, unknown, ⟨⟨0⟩, rfl⟩, taken, ?_⟩
    rw [← inserted]
    rfl
  | object e type =>
    have absent := unknown
    rw [standing?] at absent
    rw [Plan.requestEdge, Plan.edgeObject, absent]
    refine ⟨_, rfl, unknown, ⟨⟨0⟩, rfl⟩, taken, ?_⟩
    rw [← inserted]
    rfl
  | pair type =>
    refine ⟨_, rfl, unknown, ⟨p.supply.take.2.take.1, rfl⟩, Supply.takes_two owned.sound, ?_⟩
    rw [← inserted]
    rfl
  | stored e type =>
    have absent := unknown
    rw [standing?] at absent
    rw [Plan.requestEdge, Plan.storedEdge, absent]
    refine ⟨_, rfl, unknown, ⟨⟨0⟩, rfl⟩, taken, ?_⟩
    rw [← inserted]
    rfl
  | under w => exact absurd rfl (asks w)

/-- A request that finds no intent adds one, unless it only looks for the intent under a variable. -/
theorem requestEdge_cases (owned : p.Owned) (request : EdgeRequest) :
    p.requestEdge request = (p.standing? request, p) ∨
      ∃ v x q, p.requestEdge request = (some v, q) ∧ p.Adds request v x q := by
  cases stands : p.standing? request with
  | some v => exact .inl (requestEdge_of_standing stands)
  | none =>
    by_cases looks : ∃ w, request = .under w
    · obtain ⟨w, rfl⟩ := looks
      rw [standing?] at stands
      rw [Plan.requestEdge, stands]
      exact .inl rfl
    · obtain ⟨x, answered, adds⟩ := owned.adds stands (not_exists.mp looks)
      exact .inr ⟨_, x, _, Prod.ext answered rfl, adds⟩

end Owned

namespace Adds

theorem absent (adds : p.Adds request v x q) (owned : p.Owned) : p.edges.get? v = none :=
  owned.edges_of_free (adds.taken.free v (x.mem_owned_self v))

theorem edges (adds : p.Adds request v x q) : q.edges = p.edges.insert v x := by rw [adds.behind]

theorem journal (adds : p.Adds request v x q) : q.journal = request.noted p.journal v := by rw [adds.behind]

end Adds

theorem release_eq (found : p.edges.get? v = some x) : p.release v = (true, { p with
    supply := p.supply.releaseAll (x.owned v)
    journal := (x.owned v).foldl Journal.forgetEdge p.journal
    edges := p.edges.erase v
    storedEdges := x.unindexed p.storedEdges }) := by
  unfold release
  rw [found]
  cases x <;> rfl

end Plan

end GraphWrites
