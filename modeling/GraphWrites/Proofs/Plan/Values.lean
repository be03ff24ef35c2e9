import GraphWrites.Proofs.Plan.Blank

namespace GraphWrites

theorem Query.spelled_blank (q : Query) : q.blank.spelled.blank = q.spelled.blank :=
  Statement.blank_congr q.text_blank q.keys_parameters_blank

theorem Rendering.spelled_blank (r : Rendering) :
    (r.blank.queries.map Query.spelled).map Statement.blank = (r.queries.map Query.spelled).map Statement.blank := by
  simp only [blank, List.map_map, Function.comp_def, Query.spelled_blank]

namespace Plan

variable (p : Plan)

theorem statements_eq_map : p.statements = p.render.map fun r => r.queries.map Query.spelled := by
  cases rendered : p.render with
  | error failure =>
    rw [statements, rendered]
    rfl
  | ok r => exact statements_eq rendered

theorem statements_blank :
    p.blank.statements.map (List.map Statement.blank) = p.statements.map (List.map Statement.blank) := by
  rw [statements_eq_map, render_blank, statements_eq_map]
  cases p.render with
  | error failure => rfl
  | ok r => exact congrArg Except.ok r.spelled_blank

theorem compile_eq_map : p.compile = p.render.map fun r => (
    { p.journal with
      ledger := p.recreated.toList.foldl Ledger.restore p.journal.ledger
      returned := r.returned
      statements := r.queries.map Query.spelled },
    { ofConfig p.config with supply := p.supply.releaseAll p.owned }) := by
  cases rendered : p.render with
  | error failure =>
    rw [compile_eq_bind, rendered]
    rfl
  | ok r => exact compile_eq rendered

theorem owned_blank : p.blank.owned = p.owned := by
  have keys : p.blank.nodes.keys = p.nodes.keys := p.nodes.keys_mapValues _
  rw [owned, entries_edges_blank, List.flatMap_map, keys, owned]
  simp only [EdgeIntent.owned_blank]

theorem call_blank (c : PlanCall) :
    (p.blank.call c.blank).map (Prod.map PlanAnswer.blank id) = (p.call c).map (Prod.map PlanAnswer.blank blank) := by
  cases c with
  | node request edits =>
    rw [PlanCall.blank, call_node, requestNode_blank, call_node]
    rcases p.requestNode request with ⟨_ | v, q⟩
    · rfl
    · exact congrArg (fun q => Except.ok (PlanAnswer.variable (some v), q)) (q.editNode_blank v edits)
  | edge request edits =>
    rw [PlanCall.blank, call_edge, requestEdge_blank, call_edge]
    rcases p.requestEdge request with ⟨_ | v, q⟩
    · rfl
    · exact congrArg (fun q => Except.ok (PlanAnswer.variable (some v), q)) (q.editEdge_blank v edits)
  | unrelate t e => exact congrArg (fun x => Except.ok (PlanAnswer.variable x.1, x.2)) (p.unrelate_blank t e)
  | release v => exact congrArg (fun x => Except.ok (PlanAnswer.flag (some x.1), x.2)) (p.release_blank v)
  | unmap v => exact congrArg (fun x => Except.ok (PlanAnswer.flag (some x.1), x.2)) (p.unmap_blank v)
  | nodeUnder v =>
    change Except.ok (PlanAnswer.node ((p.blank.nodes.get? v).map NodeIntent.blank), p.blank) = _
    rw [get?_nodes_blank, Option.map_map, funext (f := NodeIntent.blank ∘ NodeIntent.blank) NodeIntent.blank_blank]
    rfl
  | edgeUnder v =>
    change Except.ok (PlanAnswer.edge ((p.blank.edges.get? v).map EdgeIntent.blank), p.blank) = _
    rw [get?_edges_blank, Option.map_map, funext (f := EdgeIntent.blank ∘ EdgeIntent.blank) EdgeIntent.blank_blank]
    rfl
  | touches v node =>
    change Except.ok (PlanAnswer.flag ((p.blank.edges.get? v).map fun e => e.touches node), p.blank) = _
    rw [get?_edges_blank, Option.map_map]
    exact congrArg (fun f => Except.ok (PlanAnswer.flag ((p.edges.get? v).map f), p.blank))
      (funext fun e => e.touches_blank node)
  | statements =>
    change (p.blank.call .statements).map _ = _
    rw [call_statements, statements_eq_map, render_blank, call_statements, statements_eq_map]
    cases p.render with
    | error failure => rfl
    | ok r => exact congrArg (fun ss => Except.ok (PlanAnswer.statements ss, p.blank)) r.spelled_blank
  | compile =>
    change (p.blank.call .compile).map _ = _
    rw [call_compile, compile_eq_map, render_blank, owned_blank, recreated_blank, call_compile, compile_eq_map]
    cases p.render with
    | error failure => rfl
    | ok r =>
      exact congrArg (fun statements => Except.ok (PlanAnswer.compiled { p.journal with
        ledger := p.recreated.toList.foldl Ledger.restore p.journal.ledger, returned := r.returned, statements }, _))
        r.spelled_blank
  | config => rfl
  | journal c =>
    have journal : p.blank.journal = p.journal.blank := rfl
    change (p.blank.call (.journal c)).map _ = _
    rw [call_journal, journal, Journal.call_blank, call_journal]
    cases p.journal.call c with
    | error failure => rfl
    | ok answer =>
      exact congrArg (fun a => Except.ok (PlanAnswer.journal a, { p.blank with journal := answer.2.blank }))
        answer.1.blank_blank

theorem step_blank (c : PlanCall) : p.blank.step c.blank = (p.step c).blank := by
  have same := p.call_blank c
  rw [step_eq, step_eq]
  cases here : p.call c with
  | error failure =>
    rw [here] at same
    cases there : p.blank.call c.blank with
    | error other => rfl
    | ok answer =>
      rw [there] at same
      cases same
  | ok answer =>
    rw [here] at same
    cases there : p.blank.call c.blank with
    | error other =>
      rw [there] at same
      cases same
    | ok other =>
      rw [there] at same
      exact congrArg Prod.snd (Except.ok.inj same)

/-- An action without its values. A journal that replaces another one may hold the statements of an earlier save. -/
def Action.blank : Action → Action
  | call c => call c.blank
  | replaceJournal j => replaceJournal j.blank

theorem act_blank (a : Action) : p.blank.act a.blank = (p.act a).blank := by
  cases a with
  | call c => exact p.step_blank c
  | replaceJournal j => rfl

theorem answer_blank (a : Action) : (p.blank.answer a.blank).map PlanAnswer.blank = (p.answer a).map PlanAnswer.blank := by
  cases a with
  | call c =>
    have answered : ∀ (f : Plan → Plan) (x : Except Failure (PlanAnswer × Plan)),
        (x.map Prod.fst).map PlanAnswer.blank = (x.map (Prod.map PlanAnswer.blank f)).map Prod.fst := by
      intro f x
      cases x <;> rfl
    change ((p.blank.call c.blank).map Prod.fst).map _ = ((p.call c).map Prod.fst).map _
    rw [answered id, call_blank, answered blank]
  | replaceJournal j => rfl

theorem acted_blank (actions : List Action) : p.blank.acted (actions.map Action.blank) = (p.acted actions).blank := by
  rw [acted, List.foldl_map]
  exact List.foldl_hom blank act_blank

theorem answers_blank (actions : List Action) :
    (p.blank.answers (actions.map Action.blank)).map (Except.map PlanAnswer.blank) =
      (p.answers actions).map (Except.map PlanAnswer.blank) := by
  induction actions generalizing p with
  | nil => rfl
  | cons a actions ih =>
    rw [List.map_cons, answers, List.map_cons, answer_blank, act_blank, ih, answers, List.map_cons]

variable {p}

/-- Two runs that differ in property values alone answer the same but for those values, and after them the plans are
rendered the same way: with the same failure, or with the same texts. -/
theorem values_do_not_show (c : Config) {actions others : List Action}
    (same : actions.map Action.blank = others.map Action.blank) :
    ((ofConfig c).answers actions).map (Except.map PlanAnswer.blank) =
        ((ofConfig c).answers others).map (Except.map PlanAnswer.blank) ∧
      ((ofConfig c).acted actions).isBatchable = ((ofConfig c).acted others).isBatchable ∧
      ((ofConfig c).acted actions).render.map Rendering.blank = ((ofConfig c).acted others).render.map Rendering.blank ∧
      ((ofConfig c).acted actions).statements.map (List.map Statement.blank) =
        ((ofConfig c).acted others).statements.map (List.map Statement.blank) := by
  have start : (ofConfig c).blank = ofConfig c := rfl
  have answers := (ofConfig c).answers_blank actions
  have left := (ofConfig c).acted_blank actions
  rw [start, same] at answers left
  have answers' := (ofConfig c).answers_blank others
  have left' := (ofConfig c).acted_blank others
  rw [start] at answers' left'
  have alike : ((ofConfig c).acted actions).blank = ((ofConfig c).acted others).blank := left.symm.trans left'
  refine ⟨answers.symm.trans answers', ?_, ?_, ?_⟩
  · rw [← isBatchable_blank, alike, isBatchable_blank]
  · rw [← render_blank, alike, render_blank]
  · rw [← statements_blank, alike, statements_blank]

def rated (id rating weight : Value) : List Action :=
  [.call (.node (.new ⟨1⟩) [.mergeOn "id", .setProperty "id" id]),
    .call (.node (.stored ⟨2⟩ ⟨20⟩) [.setProperty "rating" rating]),
    .call (.edge (.new "RATED") [.relate ⟨0⟩ ⟨1⟩, .setProperty "weight" weight]),
    .call (.edge (.pair "NEAR") [.setProperty "weight" weight, .relate ⟨0⟩ ⟨1⟩]),
    .call (.edge (.stored ⟨3⟩ "SEEN") [.setProperty "rating" rating]), .call (.nodeUnder ⟨1⟩)]

def plainRatings : List Action := rated (.int 7) (.text "fair") (.bool true)

def oddRatings : List Action := rated .null (.float ⟨0x7ff8000000000000⟩) (.list [.list [.null], .float ⟨0x7ff0000000000000⟩])

theorem oddRatings_do_not_show : ∃ r s, ((ofConfig .default).acted plainRatings).render = .ok r ∧
    ((ofConfig .default).acted oddRatings).render = .ok s ∧ r.blank = s.blank ∧ r.queries.length = 2 := by
  have same : plainRatings.map Action.blank = oddRatings.map Action.blank := rfl
  obtain ⟨-, -, renders, -⟩ := values_do_not_show .default same
  have rendered : ((ofConfig .default).acted plainRatings).render = .ok _ := rfl
  cases other : ((ofConfig .default).acted oddRatings).render with
  | error failure =>
    rw [rendered, other] at renders
    cases renders
  | ok s =>
    rw [rendered, other] at renders
    exact ⟨_, s, rendered, rfl, Except.ok.inj renders, by decide⟩

end Plan

end GraphWrites
