import GraphWrites.Proofs.Plan.Batch
import GraphWrites.Session

namespace GraphWrites

namespace NodeIntent

def unsetKey? : NodeIntent → Option String
  | create n => n.primaryKey.filter fun k => !n.props.contains k
  | update _ => none

theorem unsetKey?_eq_none_iff {n : NodeIntent} : n.unsetKey? = none ↔ n.HasKey := by
  cases n with
  | create n => simp [unsetKey?, HasKey, Option.filter_eq_none_iff]
  | update n => simp [unsetKey?, HasKey]

theorem isNew_of_unsetKey? {n : NodeIntent} {k : String} (unset : n.unsetKey? = some k) : n.isNew = true := by
  cases n with
  | create n => rfl
  | update n => cases unset

end NodeIntent

namespace Draft

def nodeFailure? (entry : Variable × NodeIntent) : Option Failure :=
  entry.2.unsetKey?.map (.missingPrimaryKey entry.1.text)

theorem nodeFailure?_eq_none_iff {entry : Variable × NodeIntent} : nodeFailure? entry = none ↔ entry.2.HasKey := by
  rw [nodeFailure?, Option.map_eq_none_iff, NodeIntent.unsetKey?_eq_none_iff]

theorem addNode_of_nodeFailure? (d : Draft) {entry : Variable × NodeIntent} {f : Failure}
    (fails : nodeFailure? entry = some f) : d.addNode entry = .error f := by
  obtain ⟨v, n⟩ := entry
  obtain ⟨k, unset, rfl⟩ := Option.map_eq_some_iff.mp fails
  cases n with
  | create n =>
    obtain ⟨merges, absent⟩ := Option.filter_eq_some_iff.mp unset
    have none : n.props.get? k = none := SortedMap.contains_eq_false_iff.mp (by simpa using absent)
    simp [addNode, createNode, merges, none, Bind.bind, Except.bind]
  | update n => cases unset

theorem foldlM_addNode_eq_error_iff {entries : List (Variable × NodeIntent)} {d : Draft} {f : Failure} :
    entries.foldlM addNode d = .error f ↔ entries.findSome? nodeFailure? = some f := by
  induction entries generalizing d with
  | nil => simp [Pure.pure, Except.pure]
  | cons e entries ih =>
    rw [List.foldlM_cons, List.findSome?_cons]
    cases fails : nodeFailure? e with
    | some g =>
      rw [d.addNode_of_nodeFailure? fails]
      simp [Bind.bind, Except.bind]
    | none =>
      rw [d.addNode_of_hasKey (nodeFailure?_eq_none_iff.mp fails)]
      exact ih

end Draft

namespace Plan

/-- The end names no node: it is not given, or no node intent stands under its variable. -/
def Loose (p : Plan) (node : Option Variable) : Prop := ∀ v, node = some v → p.nodes.get? v = none

/-- The end at which an intent to create edges hangs loose, its source before its target. -/
inductive Dangles (p : Plan) (e : EdgeIntent) : EdgeEnd → Prop where
  | source {source target : Option Variable} (ends : e.endpoints? = some (source, target)) (loose : p.Loose source) :
      Dangles p e .source
  | target {source target : Option Variable} (ends : e.endpoints? = some (source, target)) (joined : ¬p.Loose source)
      (loose : p.Loose target) : Dangles p e .target

/-- What a save fails with. -/
inductive FailsWith (p : Plan) : Failure → Prop where
  | unresolved (strict : p.config.policy = .fail) {v : Variable} {e : EdgeIntent} {edgeEnd : EdgeEnd}
      (found : p.edges.get? v = some e) (dangles : p.Dangles e edgeEnd)
      (first : ∀ w d other, p.edges.get? w = some d → p.Dangles d other → v.index ≤ w.index) :
      FailsWith p (.unresolvedEndpoint v.text e.type edgeEnd)
  | unkeyed (resolved : p.config.policy = .fail → ∀ v e edgeEnd, p.edges.get? v = some e → ¬p.Dangles e edgeEnd)
      {v : Variable} {n : NewNode} {k : String} (found : p.nodes.get? v = some (.create n))
      (merges : n.primaryKey = some k) (unset : n.props.get? k = none)
      (first : ∀ w m j, p.nodes.get? w = some (.create m) → m.primaryKey = some j → m.props.get? j = none →
        v.index ≤ w.index) :
      FailsWith p (.missingPrimaryKey v.text k)

variable {p : Plan} {skipped : SortedSet Variable} {f : Failure}

theorem loose_iff {node : Option Variable} : p.Loose node ↔ p.isKnown node = false := by
  rw [← Bool.not_eq_true, isKnown_iff]
  apply Iff.intro
  · intro loose known
    obtain ⟨v, n, named, found⟩ := known
    rw [loose v named] at found
    cases found
  · intro unknown v named
    cases found : p.nodes.get? v with
    | none => rfl
    | some n => exact absurd ⟨v, n, named, found⟩ unknown

theorem unresolvedEnd?_eq_some_iff {e : EdgeIntent} {edgeEnd : EdgeEnd} :
    p.unresolvedEnd? e = some edgeEnd ↔ p.Dangles e edgeEnd := by
  unfold unresolvedEnd?
  apply Iff.intro
  · intro h
    cases ends : e.endpoints? with
    | none => simp [ends] at h
    | some pair =>
      obtain ⟨source, target⟩ := pair
      cases first : p.isKnown source with
      | false =>
        simp only [ends, first, Bool.not_false, if_true, Option.some_inj] at h
        exact h ▸ .source ends (loose_iff.mpr first)
      | true =>
        have joined : ¬p.Loose source := by simp [loose_iff, first]
        cases second : p.isKnown target with
        | false =>
          simp only [ends, first, second, Bool.not_true, Bool.not_false, Bool.false_eq_true, if_false, if_true,
            Option.some_inj] at h
          exact h ▸ .target ends joined (loose_iff.mpr second)
        | true => simp [ends, first, second] at h
  · intro dangles
    cases dangles with
    | source ends loose => simp [ends, loose_iff.mp loose]
    | target ends joined loose =>
      rw [loose_iff, Bool.not_eq_false] at joined
      simp [ends, joined, loose_iff.mp loose]

theorem skipped_eq_error_iff : p.skipped = .error f ↔ p.config.policy = .fail ∧
    ∃ x, p.unresolved.head? = some x ∧ f = .unresolvedEndpoint x.1.text x.2.1.type x.2.2 := by
  unfold Plan.skipped
  cases p.config.policy with
  | skip => simp
  | fail =>
    cases p.unresolved with
    | nil => simp
    | cons x xs => simp [eq_comm]

theorem findSome?_writtenNodes (p : Plan) (edges : List EdgeIntent) :
    (p.writtenNodes edges).findSome? Draft.nodeFailure? = p.nodes.entries.findSome? Draft.nodeFailure? := by
  have new : ∀ entry : Variable × NodeIntent, entry.2.isNew = false → Draft.nodeFailure? entry = none := by
    intro entry old
    cases unset : entry.2.unsetKey? with
    | none => rw [Draft.nodeFailure?, unset, Option.map_none]
    | some k =>
      rw [NodeIntent.isNew_of_unsetKey? unset] at old
      cases old
  have stored : (p.nodes.entries.filter fun entry =>
      !entry.2.isNew && (entry.2.hasChanges || (joined edges).contains entry.1)).findSome? Draft.nodeFailure? = none := by
    refine List.findSome?_eq_none_iff.mpr fun entry member => new entry ?_
    have kept := (List.mem_filter.mp member).2
    simp only [Bool.and_eq_true, Bool.not_eq_true'] at kept
    exact kept.1
  rw [writtenNodes, List.findSome?_append, stored, Option.or_none, ← List.head?_filterMap, ← List.head?_filterMap,
    List.filterMap_filter]
  congr 1
  refine List.filterMap_congr fun entry _ => ?_
  cases old : entry.2.isNew with
  | true => simp [old]
  | false => simp [old, new entry old]

theorem renderSingly_eq_error_iff (skips : p.skipped = .ok skipped) :
    p.renderSingly skipped = .error f ↔ p.nodes.entries.findSome? Draft.nodeFailure? = some f := by
  rw [← p.findSome?_writtenNodes (p.writtenEdges skipped).values, ← Draft.foldlM_addNode_eq_error_iff (d := .empty)]
  cases nodes : (p.writtenNodes (p.writtenEdges skipped).values).foldlM Draft.addNode .empty with
  | error g =>
    unfold renderSingly
    simp [nodes, Bind.bind, Except.bind]
  | ok d =>
    obtain ⟨keys, -⟩ := Draft.foldlM_addNode_eq_ok_iff.mp nodes
    rw [renderSingly_eq keys (joins_written skips)]
    simp

theorem render_eq_error_iff : p.render = .error f ↔ p.skipped = .error f ∨
    (∃ skipped, p.skipped = .ok skipped) ∧ p.nodes.entries.findSome? Draft.nodeFailure? = some f := by
  unfold render
  cases skips : p.skipped with
  | error g => simp [Bind.bind, Except.bind]
  | ok skipped =>
    rw [← renderSingly_eq_error_iff skips]
    cases batchable : p.isBatchable with
    | true => simp [renderSingly_of_batchable batchable skips, Bind.bind, Except.bind, Pure.pure, Except.pure]
    | false => simp [Bind.bind, Except.bind]

theorem statements_eq_error_iff : p.statements = .error f ↔ p.render = .error f := by
  cases rendered : p.render with
  | error g =>
    unfold Plan.statements
    simp [rendered, Bind.bind, Except.bind]
  | ok r => simp [statements_eq rendered]

theorem compile_eq_error_iff : p.compile = .error f ↔ p.render = .error f := by
  cases rendered : p.render with
  | error g =>
    rw [compile_eq_bind]
    simp [rendered, Bind.bind, Except.bind]
  | ok r => simp [compile_eq rendered]

theorem findSome?_entries_iff {β γ : Type} {m : SortedMap Variable β} {pick : Variable × β → Option γ} {c : γ} :
    m.entries.findSome? pick = some c ↔ ∃ v b, m.get? v = some b ∧ pick (v, b) = some c ∧
      ∀ w d x, m.get? w = some d → pick (w, d) = some x → v.index ≤ w.index := by
  simp only [SortedMap.get?_eq_some_iff, List.findSome?_eq_some_iff]
  have ascending := m.ascending
  apply Iff.intro
  · intro h
    obtain ⟨before, ⟨v, b⟩, after, listed, picked, none⟩ := h
    rw [listed] at ascending ⊢
    refine ⟨v, b, by simp, picked, fun w d x member other => ?_⟩
    rcases List.mem_append.mp member with member | member
    · rw [none _ member] at other
      cases other
    · rcases List.mem_cons.mp member with same | member
      · cases same
        exact Nat.le_refl _
      · have below := (List.pairwise_cons.mp (List.pairwise_append.mp ascending).2.1).1 _ member
        exact Nat.le_of_lt (Variable.compare_eq_lt_iff.mp below)
  · intro h
    obtain ⟨v, b, member, picked, least⟩ := h
    obtain ⟨before, after, listed⟩ := List.append_of_mem member
    refine ⟨before, (v, b), after, listed, picked, fun e earlier => ?_⟩
    rw [listed] at ascending least
    have below := (List.pairwise_append.mp ascending).2.2 e earlier (v, b) List.mem_cons_self
    cases other : pick e with
    | none => rfl
    | some x =>
      have least := least e.1 e.2 x (List.mem_append_left _ earlier) other
      exact absurd (Variable.compare_eq_lt_iff.mp below) (Nat.not_lt.mpr least)

theorem unresolved_head?_iff {v : Variable} {e : EdgeIntent} {edgeEnd : EdgeEnd} :
    p.unresolved.head? = some (v, e, edgeEnd) ↔ p.edges.get? v = some e ∧ p.Dangles e edgeEnd ∧
      ∀ w d other, p.edges.get? w = some d → p.Dangles d other → v.index ≤ w.index := by
  rw [unresolved, List.head?_filterMap, findSome?_entries_iff]
  simp only [Option.map_eq_some_iff, Prod.mk.injEq, unresolvedEnd?_eq_some_iff]
  apply Iff.intro
  · intro h
    obtain ⟨v, e, found, ⟨_, dangles, rfl, rfl, rfl⟩, first⟩ := h
    exact ⟨found, dangles, fun w d other here hangs => first w d _ here ⟨other, hangs, rfl⟩⟩
  · intro h
    obtain ⟨found, dangles, first⟩ := h
    refine ⟨v, e, found, ⟨_, dangles, rfl, rfl, rfl⟩, fun w d x here hangs => ?_⟩
    obtain ⟨other, hangs, -⟩ := hangs
    exact first w d other here hangs

theorem unsetKey?_eq_some_iff {n : NodeIntent} {k : String} : n.unsetKey? = some k ↔
    ∃ m, n = .create m ∧ m.primaryKey = some k ∧ m.props.get? k = none := by
  cases n with
  | create n => simp [NodeIntent.unsetKey?, Option.filter_eq_some_iff, SortedMap.contains]
  | update n => simp [NodeIntent.unsetKey?]

theorem nodeFailure?_first_iff : p.nodes.entries.findSome? Draft.nodeFailure? = some f ↔
    ∃ v n k, p.nodes.get? v = some (.create n) ∧ n.primaryKey = some k ∧ n.props.get? k = none ∧
      (∀ w m j, p.nodes.get? w = some (.create m) → m.primaryKey = some j → m.props.get? j = none →
        v.index ≤ w.index) ∧ f = .missingPrimaryKey v.text k := by
  rw [findSome?_entries_iff]
  simp only [Draft.nodeFailure?, Option.map_eq_some_iff, unsetKey?_eq_some_iff]
  apply Iff.intro
  · intro h
    obtain ⟨v, _, found, ⟨k, ⟨n, rfl, merges, unset⟩, rfl⟩, first⟩ := h
    exact ⟨v, n, k, found, merges, unset, fun w m j here keyed lacks => first w _ _ here ⟨j, ⟨m, rfl, keyed, lacks⟩, rfl⟩,
      rfl⟩
  · intro h
    obtain ⟨v, n, k, found, merges, unset, first, rfl⟩ := h
    refine ⟨v, _, found, ⟨k, ⟨n, rfl, merges, unset⟩, rfl⟩, fun w d x here lacks => ?_⟩
    obtain ⟨j, ⟨m, rfl, keyed, lacks⟩, -⟩ := lacks
    exact first w m j here keyed lacks

theorem unresolved_eq_nil_iff :
    p.unresolved = [] ↔ ∀ v e edgeEnd, p.edges.get? v = some e → ¬p.Dangles e edgeEnd := by
  have each : ∀ (v : Variable) e, (p.unresolvedEnd? e).map (fun edgeEnd => (v, e, edgeEnd)) = none ↔
      ∀ edgeEnd, ¬p.Dangles e edgeEnd := by
    intro v e
    simp only [← unresolvedEnd?_eq_some_iff]
    cases p.unresolvedEnd? e <;> simp
  simp only [unresolved, List.filterMap_eq_nil_iff, Prod.forall, each, ← SortedMap.get?_eq_some_iff]
  exact forall₂_congr fun v e => forall_comm

theorem exists_skipped_iff : (∃ skipped, p.skipped = .ok skipped) ↔
    (p.config.policy = .fail → ∀ v e edgeEnd, p.edges.get? v = some e → ¬p.Dangles e edgeEnd) := by
  rw [← unresolved_eq_nil_iff]
  unfold Plan.skipped
  cases p.config.policy with
  | skip => simp
  | fail => cases p.unresolved <;> simp

theorem render_fails_iff : p.render = .error f ↔ p.FailsWith f := by
  rw [render_eq_error_iff, skipped_eq_error_iff, exists_skipped_iff, nodeFailure?_first_iff]
  apply Iff.intro
  · intro h
    rcases h with ⟨strict, ⟨v, e, edgeEnd⟩, head, rfl⟩ | ⟨resolved, v, n, k, found, merges, unset, first, rfl⟩
    · obtain ⟨found, dangles, first⟩ := unresolved_head?_iff.mp head
      exact .unresolved strict found dangles first
    · exact .unkeyed resolved found merges unset first
  · intro h
    cases h with
    | unresolved strict found dangles first =>
      exact .inl ⟨strict, _, unresolved_head?_iff.mpr ⟨found, dangles, first⟩, rfl⟩
    | unkeyed resolved found merges unset first => exact .inr ⟨resolved, _, _, _, found, merges, unset, first, rfl⟩

end Plan

namespace Session

open Plan

variable {s : Session} {f : Failure}

theorem call_statements (s : Session) : (s.call .statements).1 = s.plan.statements.map .statements := by
  rw [Session.call, on_perform_statements]

theorem call_compile (s : Session) : (s.call .compile).1 = s.plan.compile.map fun made => .compiled made.1 := by
  rw [Session.call, on_perform_compile, compile, Attempt.outcome]
  rcases finish.on s.plan with ⟨_ | finished, q⟩ <;> rfl

theorem unchanged_of_error {c : PlanCall} (fails : (s.call c).1 = .error f) :
    (s.call c).2.plan = s.plan ∧ (s.call c).2.finished = s.finished := by
  unfold Session.call at fails ⊢
  dsimp only at fails ⊢
  rw [s.plan.unchanged_of_error fails, fails]
  exact ⟨rfl, rfl⟩

theorem statements_fails_iff : (s.call .statements).1 = .error f ↔ s.plan.FailsWith f := by
  rw [call_statements, ← render_fails_iff, ← statements_eq_error_iff]
  cases s.plan.statements <;> simp [Except.map]

theorem compile_fails_iff : (s.call .compile).1 = .error f ↔ s.plan.FailsWith f := by
  rw [call_compile, ← render_fails_iff, ← compile_eq_error_iff]
  cases s.plan.compile <;> simp [Except.map]

theorem statements_of_compiled {finished : Journal} (compiled : (s.call .compile).1 = .ok (.compiled finished)) :
    (s.call .statements).1 = .ok (.statements finished.statements) := by
  rw [call_compile] at compiled
  cases made : s.plan.compile with
  | error g => simp [made, Except.map] at compiled
  | ok answer =>
    obtain ⟨r, ss, rendered, spelled, closed, -⟩ := compile_cases made
    simp only [made, Except.map, Except.ok.injEq, PlanAnswer.compiled.injEq] at compiled
    subst compiled
    rw [call_statements, Plan.statements, rendered, closed]
    simp only [Bind.bind, Except.bind, spelled, Except.map]

/-- Reading the statements of a save and compiling it fail alike: with the first edge that dangles, where the settings
are strict, and otherwise with the first new node that lacks its key. Once the endpoints have been checked and the nodes
are written, drawing the edges cannot fail. A compilation that fails leaves the plan and the finished saves as they were,
and one that succeeds makes the statements that could be read before. -/
theorem compile_fails_exactly (s : Session) :
    (∀ f, (s.call .statements).1 = .error f ↔ s.plan.FailsWith f) ∧
      (∀ f, (s.call .compile).1 = .error f ↔ s.plan.FailsWith f) ∧
      (s.plan.config.policy = .skip → ∀ reference type edgeEnd,
        (s.call .statements).1 ≠ .error (.unresolvedEndpoint reference type edgeEnd) ∧
        (s.call .compile).1 ≠ .error (.unresolvedEndpoint reference type edgeEnd)) ∧
      (∀ skipped d, s.plan.skipped = .ok skipped →
        (s.plan.writtenNodes (s.plan.writtenEdges skipped).values).foldlM Draft.addNode .empty = .ok d →
        ∃ drawn, (s.plan.writtenEdges skipped).entries.foldlM Draft.addEdge d = .ok drawn) ∧
      (∀ f, (s.call .compile).1 = .error f →
        (s.call .compile).2.plan = s.plan ∧ (s.call .compile).2.finished = s.finished) ∧
      ∀ finished, (s.call .compile).1 = .ok (.compiled finished) →
        (s.call .statements).1 = .ok (.statements finished.statements) := by
  have never : s.plan.config.policy = .skip → ∀ reference type edgeEnd,
      ¬s.plan.FailsWith (.unresolvedEndpoint reference type edgeEnd) := by
    intro lenient reference type edgeEnd fails
    cases fails with
    | unresolved strict =>
      rw [lenient] at strict
      cases strict
  refine ⟨fun f => statements_fails_iff, fun f => compile_fails_iff, fun lenient reference type edgeEnd => ⟨?_, ?_⟩,
    fun skipped d skips introduced => ?_, fun f => unchanged_of_error, fun finished => statements_of_compiled⟩
  · exact fun fails => never lenient reference type edgeEnd (statements_fails_iff.mp fails)
  · exact fun fails => never lenient reference type edgeEnd (compile_fails_iff.mp fails)
  · obtain ⟨-, rfl⟩ := Draft.foldlM_addNode_eq_ok_iff.mp introduced
    exact ⟨_, Draft.foldlM_addEdge_of_joins (joins_written skips)⟩

def unkeyedNodes (policy : EndpointPolicy) : Session :=
  ⟨(ofConfig { Config.default with policy }).after
    [.node (.stored ⟨1⟩ ⟨10⟩) [], .node (.new ⟨2⟩) [.mergeOn "email"], .node (.new ⟨3⟩) [.mergeOn "name"],
      .unrelate ⟨"KNOWS", ⟨10⟩, ⟨10⟩⟩ none, .edge (.new "KNOWS") [.relate ⟨0⟩ ⟨0⟩],
      .edge (.new "LIKES") [.relate ⟨1⟩ ⟨9⟩]], [], .zero⟩

theorem unkeyedNodes_fail :
    ((unkeyedNodes .skip).call .compile).1 = .error (.missingPrimaryKey "_1" "email") ∧
      ((unkeyedNodes .skip).call .compile).2.plan = (unkeyedNodes .skip).plan ∧
      ((unkeyedNodes .fail).call .statements).1 = .error (.unresolvedEndpoint "_5" "LIKES" .target) := by
  obtain ⟨-, compiles, -, -, unchanged, -⟩ := compile_fails_exactly (unkeyedNodes .skip)
  obtain ⟨states, -⟩ := compile_fails_exactly (unkeyedNodes .fail)
  have unkeyed : (unkeyedNodes .skip).plan.FailsWith (.missingPrimaryKey "_1" "email") := by
    refine .unkeyed (v := ⟨1⟩) (fun strict => by cases strict) rfl rfl rfl fun w m j found _ _ => ?_
    by_contra before
    obtain rfl : w = ⟨0⟩ := congrArg Variable.mk (Nat.lt_one_iff.mp (Nat.not_le.mp before))
    cases found
  have dangling : (unkeyedNodes .fail).plan.FailsWith (.unresolvedEndpoint "_5" "LIKES" .target) := by
    obtain ⟨found, dangles, first⟩ := unresolved_head?_iff.mp (rfl : (unkeyedNodes .fail).plan.unresolved.head? = some _)
    exact .unresolved rfl found dangles first
  have fails := (compiles _).mpr unkeyed
  exact ⟨fails, (unchanged _ fails).1, (states _).mpr dangling⟩

end Session

end GraphWrites
