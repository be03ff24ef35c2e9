import GraphWrites.Plan.Call
import GraphWrites.Proofs.Journal.Identity

namespace GraphWrites.Plan

/-- The plan behind a call, which is made whether or not the one before it failed. -/
def step (p : Plan) (c : PlanCall) : Plan := ((perform c).on p).2

def after (p : Plan) (calls : List PlanCall) : Plan := calls.foldl step p

/-- A plan that some calls lead to from the start. -/
def Reachable (p : Plan) : Prop := ∃ c calls, (ofConfig c).after calls = p

theorem after_keeps {kept : Plan → Prop} (step : ∀ p c, kept p → kept (p.step c)) {p : Plan} (start : kept p)
    (calls : List PlanCall) : kept (p.after calls) := by
  induction calls generalizing p with
  | nil => exact start
  | cons c calls ih => exact ih (step p c start)

variable (p : Plan)

/-- Nothing is drained before the statements are there. -/
theorem on_finish : finish.on p =
    match p.render.bind fun r => r.statements.map (r, ·) with
    | .ok (r, ss) =>
      (.ok { p.journal with
          ledger := p.recreated.toList.foldl Ledger.restore p.journal.ledger, returned := r.returned, statements := ss },
        { ofConfig p.config with supply := p.supply.releaseAll p.owned })
    | .error failure => (.error failure, p) := by
  rw [finish, Attempt.on_bind, Attempt.on_get]
  dsimp only
  rw [Attempt.on_bind, Attempt.on_lift]
  cases p.render with
  | error failure => rfl
  | ok r =>
    dsimp only
    rw [Attempt.on_bind, Attempt.on_lift, Except.bind]
    cases r.statements <;> rfl

theorem compile_eq_bind : p.compile = do
    let r ← p.render
    let ss ← r.statements
    return ({ p.journal with
        ledger := p.recreated.toList.foldl Ledger.restore p.journal.ledger, returned := r.returned, statements := ss },
      { ofConfig p.config with supply := p.supply.releaseAll p.owned }) := by
  rw [compile, Attempt.outcome, on_finish]
  cases p.render with
  | error failure => rfl
  | ok r =>
    change _ = r.statements.bind _
    rw [Except.bind]
    cases r.statements <;> rfl

theorem on_perform_statements : (perform .statements).on p = (p.statements.map .statements, p) := by
  rw [perform, Attempt.on_bind, Attempt.on_get]
  dsimp only
  rw [Attempt.on_return, Attempt.on_lift]

theorem on_perform_compile : (perform .compile).on p = ((finish.on p).1.map .compiled, (finish.on p).2) := by
  rw [perform, Attempt.on_return]

theorem on_onJournal {α : Type} (x : Attempt Journal α) :
    (onJournal x).on p = ((x.on p.journal).1, { p with journal := (x.on p.journal).2 }) := rfl

theorem on_perform_journal (c : JournalCall) : (perform (.journal c)).on p =
    (((Journal.perform c).on p.journal).1.map .journal, { p with journal := ((Journal.perform c).on p.journal).2 }) := by
  rw [perform, Attempt.on_return, on_onJournal]

theorem call_node (request : NodeRequest) (edits : List NodeEdit) : p.call (.node request edits) =
    match p.requestNode request with
    | (some v, q) => .ok (.variable (some v), q.editNode v edits)
    | (none, q) => .ok (.variable none, q) := by
  rw [call, perform, Attempt.outcome_modifyGet]
  rcases p.requestNode request with ⟨_ | v, q⟩ <;> rfl

theorem call_edge (request : EdgeRequest) (edits : List EdgeEdit) : p.call (.edge request edits) =
    match p.requestEdge request with
    | (some v, q) => .ok (.variable (some v), q.editEdge v edits)
    | (none, q) => .ok (.variable none, q) := by
  rw [call, perform, Attempt.outcome_modifyGet]
  rcases p.requestEdge request with ⟨_ | v, q⟩ <;> rfl

theorem call_statements : p.call .statements = p.statements.map fun ss => (.statements ss, p) := by
  rw [call, Attempt.outcome, on_perform_statements]
  cases p.statements <;> rfl

theorem call_compile : p.call .compile = p.compile.map (Prod.map .compiled id) := by
  rw [call, perform, Attempt.outcome_return, compile]

theorem call_journal (c : JournalCall) : p.call (.journal c) =
    (p.journal.call c).map fun r => (.journal r.1, { p with journal := r.2 }) := by
  rw [call, Attempt.outcome, on_perform_journal, Journal.call, Attempt.outcome]
  rcases (Journal.perform c).on p.journal with ⟨_ | answer, j⟩ <;> rfl

/-- A call that fails leaves the plan as it was. -/
theorem unchanged_of_error {c : PlanCall} {f : Failure} (fails : ((perform c).on p).1 = .error f) :
    ((perform c).on p).2 = p := by
  cases c with
  | statements => rw [on_perform_statements]
  | compile =>
    rw [on_perform_compile, on_finish] at fails ⊢
    split at fails
    · cases fails
    · rfl
  | journal c =>
    rw [on_perform_journal] at fails ⊢
    dsimp only at fails ⊢
    cases result : ((Journal.perform c).on p.journal).1 with
    | error g => rw [Journal.unchanged_of_error result]
    | ok answer =>
      rw [result] at fails
      cases fails
  | _ => cases fails

theorem step_eq (c : PlanCall) : p.step c =
    match p.call c with
    | .ok (_, q) => q
    | .error _ => p := by
  have unchanged := fun f => p.unchanged_of_error (c := c) (f := f)
  unfold step call Attempt.outcome
  rcases made : (perform c).on p with ⟨failure | answer, q⟩
  · rw [made] at unchanged
    exact unchanged failure rfl
  · rfl

theorem step_node (request : NodeRequest) (edits : List NodeEdit) : p.step (.node request edits) =
    match p.requestNode request with
    | (some v, q) => q.editNode v edits
    | (none, q) => q := by
  rw [step_eq, call_node]
  rcases p.requestNode request with ⟨_ | v, q⟩ <;> rfl

theorem step_edge (request : EdgeRequest) (edits : List EdgeEdit) : p.step (.edge request edits) =
    match p.requestEdge request with
    | (some v, q) => q.editEdge v edits
    | (none, q) => q := by
  rw [step_eq, call_edge]
  rcases p.requestEdge request with ⟨_ | v, q⟩ <;> rfl

theorem step_statements : p.step .statements = p := by
  rw [step, on_perform_statements]

theorem step_compile : p.step .compile =
    match p.compile with
    | .ok (_, q) => q
    | .error _ => p := by
  rw [step_eq, call_compile]
  cases p.compile <;> rfl

theorem step_journal (c : JournalCall) : p.step (.journal c) = { p with journal := (p.step (.journal c)).journal } := by
  rw [step, on_perform_journal]

theorem compile_cases {p q : Plan} {finished : Journal} (compiled : p.compile = .ok (finished, q)) :
    ∃ r ss, p.render = .ok r ∧ r.statements = .ok ss ∧
      finished = { p.journal with
        ledger := p.recreated.toList.foldl Ledger.restore p.journal.ledger, returned := r.returned, statements := ss } ∧
      q = { ofConfig p.config with supply := p.supply.releaseAll p.owned } := by
  rw [compile_eq_bind] at compiled
  cases rendered : p.render with
  | error failure => simp [rendered, Bind.bind, Except.bind] at compiled
  | ok r =>
    cases made : r.statements with
    | error failure => simp [rendered, made, Bind.bind, Except.bind] at compiled
    | ok ss =>
      simp only [rendered, made, Bind.bind, Except.bind, Pure.pure, Except.pure, Except.ok.injEq,
        Prod.mk.injEq] at compiled
      exact ⟨r, ss, rfl, made, compiled.1.symm, compiled.2.symm⟩

end GraphWrites.Plan
