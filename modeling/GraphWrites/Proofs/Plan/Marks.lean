import GraphWrites.Proofs.Journal.Identity
import GraphWrites.Proofs.Plan.Recycling
import GraphWrites.Proofs.Plan.Requests

namespace GraphWrites

def Journal.withMarks (j : Journal) (seen : SortedSet EdgeId) : Journal := { j with visitedEdges := seen }

def Journal.hide (hidden : Option EdgeId) (j : Journal) : Journal :=
  j.withMarks (j.visitedEdges.filter fun e => hidden != some e)

def PlanAnswer.hide (hidden : Option EdgeId) : PlanAnswer → PlanAnswer
  | compiled finished => compiled (finished.hide hidden)
  | answer => answer

theorem Journal.hide_withMarks {hidden : Option EdgeId} {seen : SortedSet EdgeId} {j : Journal}
    (same : ∀ e, hidden ≠ some e → seen.contains e = j.visitedEdges.contains e) :
    (j.withMarks seen).hide hidden = j.hide hidden := by
  refine congrArg j.withMarks (SortedSet.ext_contains fun e => ?_)
  rw [SortedSet.contains_filter, SortedSet.contains_filter]
  by_cases hides : hidden = some e
  · rw [hides, bne_self_eq_false, Bool.and_false, Bool.and_false]
  · exact congrArg (· && _) (same e hides)

theorem Journal.applyIds_withMarks (j : Journal) (seen : SortedSet EdgeId) (rows : List IdentityRow) :
    (j.withMarks seen).applyIds rows = (j.applyIds rows).map (Prod.map id fun k => k.withMarks seen) := by
  have reported : (j.withMarks seen).reported = j.reported := rfl
  rw [applyIds_eq, applyIds_eq, reported]
  cases rows.mapM j.reported <;> rfl

namespace Plan

def withMarks (p : Plan) (seen : SortedSet EdgeId) : Plan := { p with journal := p.journal.withMarks seen }

/-- The plans differ at most by the mark of the hidden edge. -/
def MarkedAlike (hidden : Option EdgeId) (p q : Plan) : Prop :=
  ∃ seen, q = p.withMarks seen ∧ ∀ e, hidden ≠ some e → seen.contains e = p.journal.visitedEdges.contains e

def Mirrors {α : Type} (hidden : Option EdgeId) (x y : α × Plan) : Prop := y.1 = x.1 ∧ x.2.MarkedAlike hidden y.2

variable {hidden : Option EdgeId} {p q : Plan}

theorem Mirrors.map {α β : Type} {x y : α × Plan} (mirrors : Mirrors hidden x y) (f : α → β) :
    Mirrors hidden (x.map f id) (y.map f id) := ⟨congrArg f mirrors.1, mirrors.2⟩

theorem agree_insert {seen marks : SortedSet EdgeId} (same : ∀ e, hidden ≠ some e → seen.contains e = marks.contains e)
    (f : EdgeId) : ∀ e, hidden ≠ some e → (seen.insert f).contains e = (marks.insert f).contains e := by
  intro e shown
  rw [SortedSet.contains_insert, SortedSet.contains_insert, same e shown]

namespace MarkedAlike

theorem requestNode (alike : p.MarkedAlike hidden q) (request : NodeRequest) :
    Mirrors hidden (p.requestNode request) (q.requestNode request) := by
  obtain ⟨seen, rfl, same⟩ := alike
  cases request with
  | new e =>
    have visited : (p.withMarks seen).visitedNode? e = p.visitedNode? e := rfl
    rw [Plan.requestNode, Plan.requestNode, newNode, newNode, visited]
    cases p.visitedNode? e <;> exact ⟨rfl, seen, rfl, same⟩
  | stored e n =>
    have visited : (p.withMarks seen).visitedNode? e = p.visitedNode? e := rfl
    rw [Plan.requestNode, Plan.requestNode, storedNode, storedNode, visited]
    cases p.visitedNode? e <;> exact ⟨rfl, seen, rfl, same⟩
  | under v => exact ⟨rfl, seen, rfl, same⟩

theorem requestEdge (alike : p.MarkedAlike hidden q) (request : EdgeRequest) :
    Mirrors hidden (p.requestEdge request) (q.requestEdge request) := by
  obtain ⟨seen, rfl, same⟩ := alike
  cases request with
  | new type => exact ⟨rfl, seen, rfl, same⟩
  | connect source type target d =>
    have links : (p.withMarks seen).journal.links = p.journal.links := rfl
    have edges : (p.withMarks seen).edges = p.edges := rfl
    rw [Plan.requestEdge, Plan.requestEdge, Plan.connect, Plan.connect]
    dsimp only
    rw [links, edges]
    split <;> exact ⟨rfl, seen, rfl, same⟩
  | object e type =>
    have visited : (p.withMarks seen).visitedEdge? e = p.visitedEdge? e := rfl
    rw [Plan.requestEdge, Plan.requestEdge, edgeObject, edgeObject, visited]
    cases p.visitedEdge? e <;> exact ⟨rfl, seen, rfl, same⟩
  | pair type => exact ⟨rfl, seen, rfl, same⟩
  | stored e type =>
    have known : (p.withMarks seen).storedEdges = p.storedEdges := rfl
    have edges : (p.withMarks seen).edges = p.edges := rfl
    rw [Plan.requestEdge, Plan.requestEdge, storedEdge, storedEdge, known, edges]
    split
    · exact ⟨rfl, seen, rfl, same⟩
    · exact ⟨rfl, seen.insert e, rfl, agree_insert same e⟩
  | under v => exact ⟨rfl, seen, rfl, same⟩

theorem editNode (alike : p.MarkedAlike hidden q) (v : Variable) (edits : List NodeEdit) :
    (p.editNode v edits).MarkedAlike hidden (q.editNode v edits) := by
  obtain ⟨seen, rfl, same⟩ := alike
  exact ⟨seen, rfl, same⟩

theorem editEdge (alike : p.MarkedAlike hidden q) (v : Variable) (edits : List EdgeEdit) :
    (p.editEdge v edits).MarkedAlike hidden (q.editEdge v edits) := by
  obtain ⟨seen, rfl, same⟩ := alike
  exact ⟨seen, rfl, same⟩

theorem release (alike : p.MarkedAlike hidden q) (v : Variable) : Mirrors hidden (p.release v) (q.release v) := by
  obtain ⟨seen, rfl, same⟩ := alike
  cases found : p.edges.get? v with
  | none =>
    have found' : (p.withMarks seen).edges.get? v = none := found
    unfold Plan.release
    rw [found, found']
    exact ⟨rfl, seen, rfl, same⟩
  | some x =>
    have journal : (x.owned v).foldl Journal.forgetEdge (p.journal.withMarks seen) =
        ((x.owned v).foldl Journal.forgetEdge p.journal).withMarks seen :=
      List.foldl_hom (fun j : Journal => j.withMarks seen) fun _ _ => rfl
    have found' : (p.withMarks seen).edges.get? v = some x := found
    rw [release_eq found, release_eq found']
    refine ⟨rfl, seen, ?_, fun e shown => ?_⟩
    · exact congrArg (fun journal => ({ p with
        supply := _, journal, edges := _, storedEdges := _ } : Plan)) journal
    · rw [Journal.foldl_forgetEdge_eq]
      exact same e shown

theorem unmap (alike : p.MarkedAlike hidden q) (v : Variable) : Mirrors hidden (p.unmap v) (q.unmap v) := by
  obtain ⟨seen, rfl, same⟩ := alike
  have nodes : (p.withMarks seen).nodes = p.nodes := rfl
  have edges : (p.withMarks seen).edges = p.edges := rfl
  unfold Plan.unmap
  rw [nodes, edges]
  dsimp only
  split
  · split <;> exact ⟨rfl, seen, rfl, same⟩
  · exact ⟨rfl, seen, rfl, same⟩

theorem unrelate (alike : p.MarkedAlike hidden q) (t : Triple) (e : Option EdgeId) :
    Mirrors hidden (p.unrelate t e) (q.unrelate t e) := by
  have creates : q.createsTriple = p.createsTriple := by
    obtain ⟨seen, rfl, -⟩ := alike
    rfl
  have edges : q.edges = p.edges := by
    obtain ⟨seen, rfl, -⟩ := alike
    rfl
  unfold Plan.unrelate
  rw [creates, edges]
  split
  · exact (alike.release _).map fun _ => none
  · obtain ⟨seen, rfl, same⟩ := alike
    exact ⟨rfl, seen, rfl, same⟩

theorem compile (alike : p.MarkedAlike hidden q) :
    (∃ failure, p.compile = .error failure ∧ q.compile = .error failure) ∨
      ∃ finished other next, p.compile = .ok (finished, next) ∧ q.compile = .ok (other, next) ∧
        other.hide hidden = finished.hide hidden := by
  obtain ⟨seen, rfl, same⟩ := alike
  have render : (p.withMarks seen).render = p.render := rfl
  rw [compile_eq_bind, compile_eq_bind, render]
  cases p.render with
  | error failure => exact .inl ⟨failure, rfl, rfl⟩
  | ok r =>
    dsimp only [Bind.bind, Except.bind]
    cases r.statements with
    | error failure => exact .inl ⟨failure, rfl, rfl⟩
    | ok ss =>
      refine .inr ⟨_, _, _, rfl, rfl, ?_⟩
      exact Journal.hide_withMarks (j := { p.journal with
        ledger := p.recreated.toList.foldl Ledger.restore p.journal.ledger
        returned := r.returned
        statements := ss }) same

end MarkedAlike

def EndsAlike (hidden : Option EdgeId) : (left right : Except Failure (PlanAnswer × Plan)) → Prop
  | .error f, .error g => g = f
  | .ok (a, p), .ok (b, q) => b.hide hidden = a.hide hidden ∧ p.MarkedAlike hidden q
  | _, _ => False

namespace MarkedAlike

theorem journalCall (alike : p.MarkedAlike hidden q) {c : JournalCall} (unasked : ∀ e, hidden = some e → c ≠ .edgeVisited e) :
    EndsAlike hidden (p.call (.journal c)) (q.call (.journal c)) := by
  obtain ⟨seen, rfl, same⟩ := alike
  cases c with
  | visitEdge e => exact ⟨rfl, seen.insert e, rfl, agree_insert same e⟩
  | edgeVisited e =>
    have shown : hidden ≠ some e := fun hides => unasked e hides rfl
    refine ⟨?_, seen, rfl, same⟩
    exact congrArg (fun b => PlanAnswer.journal (.flag b)) (same e shown)
  | applyIds rows =>
    have journal : (p.withMarks seen).journal = p.journal.withMarks seen := rfl
    have kept := p.journal.applyIds_withMarks p.journal.visitedEdges rows
    change p.journal.applyIds rows = _ at kept
    rw [call_journal, call_journal, journal, Journal.call_applyIds, Journal.call_applyIds, Journal.applyIds_withMarks]
    cases applied : p.journal.applyIds rows with
    | error failure => rfl
    | ok answer =>
      -- taking in ids leaves the marks
      rw [applied] at kept
      have marks : answer.2.visitedEdges = p.journal.visitedEdges :=
        congrArg (fun k => k.2.visitedEdges) (Except.ok.inj kept)
      exact ⟨rfl, seen, rfl, fun e shown => (same e shown).trans (congrArg (SortedMap.contains · e) marks.symm)⟩
  | takeStatements => exact ⟨rfl, ∅, rfl, fun _ _ => rfl⟩
  | _ => exact ⟨rfl, seen, rfl, same⟩

theorem call (alike : p.MarkedAlike hidden q) {c : PlanCall} (unasked : ∀ e, hidden = some e → c ≠ .journal (.edgeVisited e)) :
    EndsAlike hidden (p.call c) (q.call c) := by
  cases c with
  | node request edits =>
    have asked := alike.requestNode request
    rw [call_node, call_node]
    generalize p.requestNode request = x, q.requestNode request = y at asked ⊢
    obtain ⟨answer, r⟩ := x
    obtain ⟨_, s⟩ := y
    obtain ⟨⟨⟩, behind⟩ := asked
    rcases answer with _ | v
    · exact ⟨rfl, behind⟩
    · exact ⟨rfl, behind.editNode v edits⟩
  | edge request edits =>
    have asked := alike.requestEdge request
    rw [call_edge, call_edge]
    generalize p.requestEdge request = x, q.requestEdge request = y at asked ⊢
    obtain ⟨answer, r⟩ := x
    obtain ⟨_, s⟩ := y
    obtain ⟨⟨⟩, behind⟩ := asked
    rcases answer with _ | v
    · exact ⟨rfl, behind⟩
    · exact ⟨rfl, behind.editEdge v edits⟩
  | unrelate t e =>
    obtain ⟨answer, behind⟩ := alike.unrelate t e
    exact ⟨congrArg (fun v => (PlanAnswer.variable v).hide hidden) answer, behind⟩
  | release v =>
    obtain ⟨answer, behind⟩ := alike.release v
    exact ⟨congrArg (fun b => (PlanAnswer.flag (some b)).hide hidden) answer, behind⟩
  | unmap v =>
    obtain ⟨answer, behind⟩ := alike.unmap v
    exact ⟨congrArg (fun b => (PlanAnswer.flag (some b)).hide hidden) answer, behind⟩
  | statements =>
    have statements : q.statements = p.statements := by
      obtain ⟨seen, rfl, -⟩ := alike
      rfl
    rw [call_statements, call_statements, statements]
    cases p.statements with
    | error failure => rfl
    | ok ss => exact ⟨rfl, alike⟩
  | compile =>
    rw [call_compile, call_compile]
    rcases alike.compile with ⟨failure, left, right⟩ | ⟨finished, other, next, left, right, same⟩
    · rw [left, right]
      rfl
    · rw [left, right]
      exact ⟨congrArg PlanAnswer.compiled same, next.journal.visitedEdges, rfl, fun _ _ => rfl⟩
  | journal c => exact alike.journalCall fun e hides same => unasked e hides (congrArg PlanCall.journal same)
  | _ =>
    obtain ⟨seen, rfl, same⟩ := alike
    exact ⟨rfl, seen, rfl, same⟩

theorem act (alike : p.MarkedAlike hidden q) {a : Action}
    (unasked : ∀ e, hidden = some e → a ≠ .call (.journal (.edgeVisited e))) :
    (q.answer a).map (PlanAnswer.hide hidden) = (p.answer a).map (PlanAnswer.hide hidden) ∧ (p.act a).MarkedAlike hidden (q.act a) := by
  cases a with
  | replaceJournal j =>
    obtain ⟨seen, rfl, same⟩ := alike
    exact ⟨rfl, j.visitedEdges, rfl, fun _ _ => rfl⟩
  | call c =>
    have ends := alike.call fun e hides same => unasked e hides (congrArg Action.call same)
    unfold answer Plan.act
    dsimp only
    rw [step_eq, step_eq]
    cases left : p.call c with
    | error failure =>
      cases right : q.call c with
      | error other =>
        rw [left, right] at ends
        cases ends
        exact ⟨rfl, alike⟩
      | ok done =>
        rw [left, right] at ends
        cases ends
    | ok done =>
      cases right : q.call c with
      | error other =>
        rw [left, right] at ends
        cases ends
      | ok other =>
        rw [left, right] at ends
        exact ⟨congrArg Except.ok ends.1, ends.2⟩

theorem acted (alike : p.MarkedAlike hidden q) {actions : List Action}
    (unasked : ∀ e, hidden = some e → Action.call (.journal (.edgeVisited e)) ∉ actions) :
    (q.answers actions).map (Except.map (PlanAnswer.hide hidden)) = (p.answers actions).map (Except.map (PlanAnswer.hide hidden)) ∧
      (p.acted actions).MarkedAlike hidden (q.acted actions) := by
  induction actions generalizing p q with
  | nil => exact ⟨rfl, alike⟩
  | cons a actions ih =>
    obtain ⟨answered, behind⟩ := alike.act fun e hides same => unasked e hides (same ▸ List.mem_cons_self)
    obtain ⟨rest, left⟩ := ih behind fun e hides member => unasked e hides (List.mem_cons_of_mem _ member)
    refine ⟨?_, left⟩
    rw [answers, answers, List.map_cons, List.map_cons, answered, rest]

theorem fitsPool (alike : p.MarkedAlike hidden q) {actions : List Action}
    (unasked : ∀ e, hidden = some e → Action.call (.journal (.edgeVisited e)) ∉ actions) (fits : p.FitsPool actions) :
    q.FitsPool actions := by
  intro before initial
  have behind := (alike.acted fun e hides member => unasked e hides (initial.mem member)).2
  have live : (q.acted before).supply.live = (p.acted before).supply.live := by
    obtain ⟨seen, same, -⟩ := behind
    rw [same]
    rfl
  have config : q.config = p.config := by
    obtain ⟨seen, rfl, -⟩ := alike
    rfl
  rw [live, config]
  exact fits before initial

end MarkedAlike

end Plan

end GraphWrites
