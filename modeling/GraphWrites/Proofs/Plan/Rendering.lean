import GraphWrites.Proofs.Plan.Script

namespace GraphWrites

namespace Draft

def report (d : Draft) : List Clause := if d.returned.isEmpty then [] else [.report d.returned.toList]

theorem of_mem_report {d : Draft} {c : Clause} (member : c ∈ d.report) : c = .report d.returned.toList := by
  unfold report at member
  split at member
  · cases member
  · exact List.mem_singleton.mp member

theorem script?_eq_some_iff {d : Draft} {q : Query} :
    d.script? = some q ↔ d.clauses ≠ [] ∧ q = .script (d.clauses ++ d.report) d.rows := by
  unfold script?
  split
  · rename_i empty
    simp [List.isEmpty_iff.mp empty]
  · rename_i some
    apply Iff.intro
    · intro written
      cases written
      exact ⟨fun none => some (List.isEmpty_iff.mpr none), rfl⟩
    · intro h
      obtain ⟨-, rfl⟩ := h
      rfl

end Draft

namespace Plan

theorem isKnown_iff {p : Plan} {v : Option Variable} :
    p.isKnown v = true ↔ ∃ w n, v = some w ∧ p.nodes.get? w = some n := by
  cases v with
  | none => simp [isKnown]
  | some w => simp [isKnown, SortedMap.contains_iff]

theorem unresolvedEnd?_eq_none_iff {p : Plan} {e : EdgeIntent} : p.unresolvedEnd? e = none ↔
    ∀ ends, e.endpoints? = some ends → p.isKnown ends.1 = true ∧ p.isKnown ends.2 = true := by
  unfold unresolvedEnd?
  cases e.endpoints? with
  | none => simp
  | some ends =>
    obtain ⟨source, target⟩ := ends
    cases first : p.isKnown source <;> cases second : p.isKnown target <;> simp [first, second]

theorem contains_skipped_iff {p : Plan} {skipped : SortedSet Variable} (skips : p.skipped = .ok skipped) {v : Variable}
    {e : EdgeIntent} (found : p.edges.get? v = some e) :
    skipped.contains v = true ↔ p.unresolvedEnd? e ≠ none := by
  have listed : v ∈ p.unresolved.map Prod.fst ↔ p.unresolvedEnd? e ≠ none := by
    simp only [List.mem_map, unresolved, List.mem_filterMap, Prod.exists, Option.map_eq_some_iff,
      ← SortedMap.get?_eq_some_iff, Option.ne_none_iff_exists']
    apply Iff.intro
    · intro h
      obtain ⟨_, d, edgeEnd, ⟨w, d', here, _, unresolved, same⟩, rfl⟩ := h
      cases same
      rw [found] at here
      exact ⟨edgeEnd, Option.some_inj.mp here ▸ unresolved⟩
    · intro h
      obtain ⟨edgeEnd, unresolved⟩ := h
      exact ⟨v, e, edgeEnd, ⟨v, e, found, edgeEnd, unresolved, rfl⟩, rfl⟩
  unfold Plan.skipped at skips
  split at skips
  · cases skips
    rw [SortedSet.contains_ofList, decide_eq_true_eq, listed]
  · rename_i none
    cases skips
    rw [none] at listed
    simpa using listed
  · cases skips

theorem get?_writtenEdges_eq_some_iff {p : Plan} {skipped : SortedSet Variable} {v : Variable} {e : EdgeIntent} :
    (p.writtenEdges skipped).get? v = some e ↔
      p.edges.get? v = some e ∧ skipped.contains v = false ∧ p.isSuperseded e = false := by
  rw [writtenEdges, SortedMap.get?_filter, Option.filter_eq_some_iff]
  simp

theorem resolved_of_written {p : Plan} {skipped : SortedSet Variable} (skips : p.skipped = .ok skipped) {v : Variable}
    {e : EdgeIntent} (written : (p.writtenEdges skipped).get? v = some e) : p.unresolvedEnd? e = none := by
  obtain ⟨found, kept, -⟩ := get?_writtenEdges_eq_some_iff.mp written
  by_contra unresolved
  rw [(contains_skipped_iff skips found).mpr unresolved] at kept
  cases kept

theorem mem_joined {edges : List EdgeIntent} {v : Variable} : v ∈ joined edges ↔ ∃ e ∈ edges, e.touches v = true := by
  have one : ∀ e : EdgeIntent, e.touches v = true ↔ ∃ ends, e.endpoints? = some ends ∧ v ∈ ends.1.toList ++ ends.2.toList := by
    intro e
    unfold EdgeIntent.touches
    cases e.endpoints? with
    | none => simp
    | some ends => simp [Option.mem_toList]
  simp only [joined, List.mem_flatMap, one]
  refine exists_congr fun e => and_congr_right fun _ => ?_
  cases e.endpoints? <;> simp

theorem mem_writtenNodes {p : Plan} {edges : List EdgeIntent} {v : Variable} {n : NodeIntent} :
    (v, n) ∈ p.writtenNodes edges ↔
      p.nodes.get? v = some n ∧ (n.isNew = true ∨ n.hasChanges = true ∨ v ∈ joined edges) := by
  simp only [writtenNodes, List.mem_append, List.mem_filter, SortedMap.get?_eq_some_iff, Bool.and_eq_true,
    Bool.or_eq_true, Bool.not_eq_true', List.contains_iff_mem]
  cases n.isNew <;> simp

theorem writtenNodes_nodup (p : Plan) (edges : List EdgeIntent) : ((p.writtenNodes edges).map Prod.fst).Nodup := by
  have part : ∀ keep : Variable × NodeIntent → Bool, ((p.nodes.entries.filter keep).map Prod.fst).Nodup := by
    intro keep
    exact p.nodes.keys_nodup.sublist (List.filter_sublist.map _)
  rw [writtenNodes, List.map_append, List.nodup_append]
  refine ⟨part _, part _, fun v first w second same => ?_⟩
  subst same
  obtain ⟨⟨v, n⟩, member, rfl⟩ := List.mem_map.mp first
  obtain ⟨⟨w, m⟩, other, here⟩ := List.mem_map.mp second
  obtain ⟨found, new⟩ := List.mem_filter.mp member
  obtain ⟨again, old⟩ := List.mem_filter.mp other
  dsimp only at here new old
  subst here
  have one := (SortedMap.get?_eq_some_iff.mpr found).symm.trans (SortedMap.get?_eq_some_iff.mpr again)
  cases one
  simp [new] at old

def draft (p : Plan) (skipped : SortedSet Variable) : Draft :=
  let edges := p.writtenEdges skipped
  (Draft.drawnEdges edges.entries).foldl Draft.draw ((p.writtenNodes edges.values).foldl Draft.introduce .empty)

theorem draft_induction {kept : Draft → Prop} (p : Plan) (skipped : SortedSet Variable) (empty : kept .empty)
    (introduce : ∀ d, kept d → ∀ e ∈ p.writtenNodes (p.writtenEdges skipped).values, kept (d.introduce e))
    (draw : ∀ d, kept d → ∀ x ∈ Draft.drawnEdges (p.writtenEdges skipped).entries, kept (d.draw x)) :
    kept (p.draft skipped) := by
  have nodes : kept ((p.writtenNodes (p.writtenEdges skipped).values).foldl Draft.introduce .empty) :=
    List.foldlRecOn _ _ empty introduce
  exact List.foldlRecOn _ _ nodes draw

theorem introduced {p : Plan} {edges : List EdgeIntent} {v : Variable} {n : NodeIntent}
    (member : (v, n) ∈ p.writtenNodes edges) :
    ((p.writtenNodes edges).foldl Draft.introduce .empty).rows.get? v = some n.row ∧
      ((p.writtenNodes edges).foldl Draft.introduce .empty).declared.contains v = true := by
  constructor
  · rw [Draft.rows_foldl_introduce]
    refine SortedMap.get?_foldl_insert_of_mem _ _ ?_ (List.mem_map_of_mem member)
    rw [List.map_map]
    exact p.writtenNodes_nodup edges
  · rw [Draft.declared_foldl_introduce, SortedSet.contains_insertMany, Bool.or_eq_true, decide_eq_true_eq]
    exact .inl (List.mem_map_of_mem member)

def writtenDeletions (p : Plan) (skipped : SortedSet Variable) : List DeletedEdge :=
  (p.writtenEdges skipped).values.filterMap deletion? ++ p.removals.map fun r => ⟨r.triple, r.id⟩

def singly (p : Plan) (skipped : SortedSet Variable) : Rendering :=
  { queries := (p.draft skipped).script?.toList ++ patches (p.writtenEdges skipped).values ++
      deletions (p.writtenDeletions skipped)
    returned := (p.draft skipped).returned
    batched := false }

theorem mem_queries_singly {p : Plan} {skipped : SortedSet Variable} {q : Query} : q ∈ (p.singly skipped).queries ↔
    (p.draft skipped).script? = some q ∨ q ∈ patches (p.writtenEdges skipped).values ∨
      q ∈ deletions (p.writtenDeletions skipped) := by
  simp only [singly, List.mem_append, Option.mem_toList, or_assoc]

theorem of_mem_patches {intents : List EdgeIntent} {q : Query} (member : q ∈ patches intents) :
    ∃ type rows, q = .patch type rows := by
  obtain ⟨⟨type, rows⟩, -, rfl⟩ := List.mem_map.mp member
  exact ⟨type, _, rfl⟩

theorem mem_deletionsOfType {type : String} {ds : List (Triple × Option EdgeId)} {q : Query} :
    q ∈ deletionsOfType type ds ↔
      (∃ rows, q = .deleteBetween type rows ∧ rows ≠ [] ∧
        rows = ds.filterMap fun d => if d.2.isNone then some (d.1.source, d.1.target) else none) ∨
      ∃ rows, q = .deleteById type rows ∧ rows ≠ [] ∧ rows = ds.filterMap Prod.snd := by
  have one : ∀ {α : Type} (rows : List α) (make : List α → Query),
      q ∈ (if rows.isEmpty then [] else [make rows]) ↔ ∃ xs, q = make xs ∧ xs ≠ [] ∧ xs = rows := by
    intro α rows make
    cases rows <;> simp
  unfold deletionsOfType
  rw [List.mem_append]
  exact or_congr (one _ (Query.deleteBetween type)) (one _ (Query.deleteById type))

theorem of_mem_deletions {ds : List DeletedEdge} {q : Query} (member : q ∈ deletions ds) :
    (∃ type rows, q = .deleteBetween type rows) ∨ ∃ type rows, q = .deleteById type rows := by
  obtain ⟨⟨type, group⟩, -, member⟩ := List.mem_flatMap.mp member
  rcases mem_deletionsOfType.mp member with ⟨rows, rfl, -⟩ | ⟨rows, rfl, -⟩
  · exact .inl ⟨type, rows, rfl⟩
  · exact .inr ⟨type, rows, rfl⟩

theorem mem_queries_renderBatch {p : Plan} {skipped : SortedSet Variable} {q : Query} :
    q ∈ (p.renderBatch skipped).queries ↔ p.linkRows skipped ≠ [] ∧ q = .link (linkBlocks (p.linkRows skipped)) := by
  unfold renderBatch
  cases p.linkRows skipped <;> simp

theorem eq_of_renderSingly {p : Plan} {skipped : SortedSet Variable} {r : Rendering}
    (rendered : p.renderSingly skipped = .ok r) : r = p.singly skipped := by
  unfold renderSingly at rendered
  cases nodes : (p.writtenNodes (p.writtenEdges skipped).values).foldlM Draft.addNode .empty with
  | error failure => simp [nodes, Bind.bind, Except.bind] at rendered
  | ok first =>
    cases edges : (p.writtenEdges skipped).entries.foldlM Draft.addEdge first with
    | error failure => simp [nodes, edges, Bind.bind, Except.bind] at rendered
    | ok last =>
      obtain ⟨-, rfl⟩ := Draft.foldlM_addNode_eq_ok_iff.mp nodes
      have drawn := Draft.eq_of_foldlM_addEdge edges
      simp only [nodes, edges, Bind.bind, Except.bind, Pure.pure, Except.pure, Except.ok.injEq] at rendered
      subst drawn
      exact rendered.symm

theorem renderSingly_eq {p : Plan} {skipped : SortedSet Variable}
    (keys : ∀ e ∈ p.writtenNodes (p.writtenEdges skipped).values, e.2.HasKey)
    (joins : ∀ e ∈ (p.writtenEdges skipped).entries,
      ((p.writtenNodes (p.writtenEdges skipped).values).foldl Draft.introduce .empty).Joins e.2) :
    p.renderSingly skipped = .ok (p.singly skipped) := by
  have nodes := Draft.foldlM_addNode_eq_ok_iff (d := .empty).mpr ⟨keys, rfl⟩
  have edges := Draft.foldlM_addEdge_of_joins joins
  unfold renderSingly
  simp only [nodes, edges, Bind.bind, Except.bind, Pure.pure, Except.pure]
  rfl

/-- A plan renders to its batch if it can be written as one, and clause by clause otherwise. -/
theorem render_cases {p : Plan} {r : Rendering} (rendered : p.render = .ok r) : ∃ skipped, p.skipped = .ok skipped ∧
    (p.isBatchable = true ∧ r = p.renderBatch skipped ∨ p.isBatchable = false ∧ r = p.singly skipped) := by
  unfold render at rendered
  cases skips : p.skipped with
  | error failure => simp [skips, Bind.bind, Except.bind] at rendered
  | ok skipped =>
    refine ⟨skipped, rfl, ?_⟩
    rw [skips] at rendered
    cases batchable : p.isBatchable with
    | true =>
      simp only [batchable, Bind.bind, Except.bind, Pure.pure, Except.pure, if_true, Except.ok.injEq] at rendered
      exact .inl ⟨rfl, rendered.symm⟩
    | false =>
      simp only [batchable, Bind.bind, Except.bind, Bool.false_eq_true, if_false] at rendered
      exact .inr ⟨rfl, eq_of_renderSingly rendered⟩

end Plan

end GraphWrites
