import GraphWrites.Proofs.Plan.Failures
import GraphWrites.Proofs.Plan.Requests

namespace GraphWrites.Plan

/-- The intent under the variable creates the triple between stored nodes. -/
def Pending (p : Plan) (t : Triple) (v : Variable) : Prop :=
  ∃ e, p.edges.get? v = some (.create e) ∧ e.type = t.type ∧ p.persistedEnds e = (some t.source, some t.target)

/-- The edge intent is gone with its variable and with whatever the indexes said of it. Nothing else is. -/
structure Cancels (p : Plan) (v : Variable) (q : Plan) : Prop where
  edges : q.edges = p.edges.erase v
  outstanding : ∀ w, q.supply.isOutstanding w = true ↔ p.supply.isOutstanding w = true ∧ w ≠ v
  bound : q.supply.bound = p.supply.bound
  visited : ∀ e w, q.journal.visited.get? e = some w ↔ p.journal.visited.get? e = some w ∧ w ≠ v
  links : ∀ l w, q.journal.links.get? l = some w ↔ p.journal.links.get? l = some w ∧ w ≠ v
  created : ∀ w e, q.journal.created.get? w = some e ↔ p.journal.created.get? w = some e ∧ w ≠ v
  rest : q = { p with
    supply := q.supply
    edges := q.edges
    journal := { p.journal with
      visited := q.journal.visited
      links := q.journal.links
      created := q.journal.created } }

structure Deletes (p : Plan) (d : DeletedEdge) (v : Variable) (q : Plan) : Prop where
  free : p.supply.isOutstanding v = false
  absent : p.edges.get? v = none
  edges : q.edges = p.edges.insert v (.delete d)
  outstanding : ∀ w, q.supply.isOutstanding w = true ↔ w = v ∨ p.supply.isOutstanding w = true
  bound : q.supply.bound = p.supply.bound
  rest : q = { p with supply := q.supply, edges := q.edges }

variable {p q : Plan} {t : Triple} {v : Variable}

theorem pending_iff : p.Pending t v ↔ ∃ x, p.edges.get? v = some x ∧ p.createsTriple t x = true := by
  apply Iff.intro
  · intro h
    obtain ⟨e, found, type, ends⟩ := h
    exact ⟨_, found, by simp [createsTriple, type, ends]⟩
  · intro h
    obtain ⟨x, found, creates⟩ := h
    cases x with
    | create e =>
      rw [createsTriple, Bool.and_eq_true, beq_iff_eq, beq_iff_eq] at creates
      exact ⟨e, found, creates⟩
    | _ => cases creates

theorem Pending.congr (nodes : q.nodes = p.nodes) (found : q.edges.get? v = p.edges.get? v) :
    q.Pending t v ↔ p.Pending t v := by
  unfold Pending persistedEnds persisted?
  rw [nodes, found]

theorem unrelate_cases (p : Plan) (t : Triple) (e : Option EdgeId) :
    (∃ v, p.Pending t v ∧ (∀ w, p.Pending t w → v.index ≤ w.index) ∧ p.unrelate t e = (none, (p.release v).2)) ∨
      (∀ v, ¬p.Pending t v) ∧ p.unrelate t e = (some p.supply.take.1, { p with
        supply := p.supply.take.2
        edges := p.edges.insert p.supply.take.1 (.delete ⟨t, e⟩) }) := by
  unfold unrelate
  cases first : p.edges.entries.find? fun entry => p.createsTriple t entry.2 with
  | some entry =>
    obtain ⟨v, x⟩ := entry
    rw [List.find?_eq_findSome?_guard, findSome?_entries_iff] at first
    obtain ⟨w, y, found, picked, least⟩ := first
    rw [Option.guard_eq_some_iff] at picked
    obtain ⟨same, creates⟩ := picked
    cases same
    refine .inl ⟨v, pending_iff.mpr ⟨x, found, creates⟩, fun u pending => ?_, rfl⟩
    obtain ⟨z, there, pends⟩ := pending_iff.mp pending
    exact least u z (u, z) there (Option.guard_eq_some_iff.mpr ⟨rfl, pends⟩)
  | none =>
    refine .inr ⟨fun v pending => ?_, rfl⟩
    obtain ⟨x, found, creates⟩ := pending_iff.mp pending
    exact List.find?_eq_none.mp first (v, x) (SortedMap.get?_eq_some_iff.mp found) creates

theorem Owned.cancels_release (owned : p.Owned) {e : NewEdge} (found : p.edges.get? v = some (.create e)) :
    p.Cancels v (p.release v).2 := by
  rw [release_eq found]
  refine ⟨rfl, fun w => ?_, ?_, fun f w => ?_, fun l w => ?_, fun w f => ?_, ?_⟩
  · rw [Supply.isOutstanding_releaseAll]
    simp [EdgeIntent.owned, and_comm]
  · -- the variable of an edge is bound to no node
    apply SortedMap.ext_get?
    intro n
    ext w
    rw [Supply.get?_bound_releaseAll, Option.filter_eq_some_iff, and_iff_left_iff_imp]
    intro bound
    obtain ⟨s, node, -⟩ := owned.get?_bound_iff.mp bound
    have other : w ≠ v := by
      rintro rfl
      cases owned.unique _ _ w (holds_node_self node) (holds_edge_self found)
    simp [EdgeIntent.owned, other]
  · rw [Journal.get?_visited_foldl_forgetEdge]
    simp [EdgeIntent.owned]
  · rw [Journal.get?_links_foldl_forgetEdge]
    simp [EdgeIntent.owned]
  · rw [Journal.get?_created_foldl_forgetEdge]
    simp [EdgeIntent.owned, and_comm]
  · rw [Journal.foldl_forgetEdge_eq]
    rfl

theorem Owned.deletes_insert (owned : p.Owned) (d : DeletedEdge) : p.Deletes d p.supply.take.1 { p with
    supply := p.supply.take.2
    edges := p.edges.insert p.supply.take.1 (.delete d) } where
  free := p.supply.isOutstanding_take_self
  absent := owned.edges_of_free p.supply.isOutstanding_take_self
  edges := rfl
  outstanding := Supply.isOutstanding_take owned.sound
  bound := p.supply.bound_take
  rest := rfl

theorem Cancels.pending_iff (cancels : p.Cancels v q) {w : Variable} : q.Pending t w ↔ p.Pending t w ∧ w ≠ v := by
  have nodes : q.nodes = p.nodes := by rw [cancels.rest]
  by_cases here : w = v
  · subst here
    simp [Pending, cancels.edges, SortedMap.get?_erase_self]
  · rw [Pending.congr nodes (by rw [cancels.edges, SortedMap.get?_erase_of_ne _ here])]
    simp [here]

theorem Deletes.pending_iff {d : DeletedEdge} (deletes : p.Deletes d v q) {w : Variable} :
    q.Pending t w ↔ p.Pending t w := by
  have nodes : q.nodes = p.nodes := by rw [deletes.rest]
  by_cases here : w = v
  · subst here
    simp [Pending, deletes.edges, SortedMap.get?_insert_self, deletes.absent]
  · exact Pending.congr nodes (by rw [deletes.edges, SortedMap.get?_insert_of_ne _ _ here])

/-- A deletion cancels one pending creation of the edge, or it is asked for if there is none. So no creation is left
exactly if there was one at most. -/
theorem unrelate_cancels_first (c : Config) (actions : List Action) (t : Triple) (e : Option EdgeId) :
    ∃ answer q, ((ofConfig c).acted actions).unrelate t e = (answer, q) ∧
      ((∃ v, ((ofConfig c).acted actions).Pending t v ∧
          (∀ w, ((ofConfig c).acted actions).Pending t w → v.index ≤ w.index) ∧
          answer = none ∧ ((ofConfig c).acted actions).Cancels v q) ∨
        (∀ v, ¬((ofConfig c).acted actions).Pending t v) ∧
          ∃ v, answer = some v ∧ ((ofConfig c).acted actions).Deletes ⟨t, e⟩ v q) ∧
      ((∀ v, ¬q.Pending t v) ↔
        ∀ v w, ((ofConfig c).acted actions).Pending t v → ((ofConfig c).acted actions).Pending t w → v = w) := by
  have owned : ((ofConfig c).acted actions).Owned := (Owned.ofConfig c).acted actions
  generalize (ofConfig c).acted actions = p at owned
  rcases p.unrelate_cases t e with ⟨v, pending, least, cancelled⟩ | ⟨none, deleted⟩
  · have ⟨x, found, _⟩ := pending
    have cancels := owned.cancels_release found
    refine ⟨_, _, cancelled, .inl ⟨v, pending, least, rfl, cancels⟩, ?_⟩
    simp only [cancels.pending_iff]
    apply Iff.intro
    · intro gone u w left right
      have here : ∀ w, p.Pending t w → w = v := fun w creates => by
        by_contra other
        exact gone w ⟨creates, other⟩
      rw [here u left, here w right]
    · intro single w left
      exact left.2 (single w v left.1 pending)
  · have deletes := owned.deletes_insert ⟨t, e⟩
    refine ⟨_, _, deleted, .inr ⟨none, _, rfl, deletes⟩, ?_⟩
    simp only [deletes.pending_iff]
    exact iff_of_true none fun v w left => absurd left (none v)

def createdTwice : List Action :=
  [.call (.node (.stored ⟨1⟩ ⟨10⟩) []), .call (.node (.stored ⟨2⟩ ⟨20⟩) []), .call (.edge (.new "T") [.relate ⟨0⟩ ⟨1⟩]),
    .call (.edge (.object ⟨3⟩ "T") [.relate ⟨1⟩ ⟨0⟩, .orient .incoming])]

theorem createdTwice_survives :
    (((ofConfig .default).acted createdTwice).unrelate ⟨"T", ⟨10⟩, ⟨20⟩⟩ none).1 = none ∧
      (((ofConfig .default).acted createdTwice).unrelate ⟨"T", ⟨10⟩, ⟨20⟩⟩ none).2.Pending ⟨"T", ⟨10⟩, ⟨20⟩⟩ ⟨3⟩ :=
  ⟨rfl, _, rfl, rfl, rfl⟩

end GraphWrites.Plan
