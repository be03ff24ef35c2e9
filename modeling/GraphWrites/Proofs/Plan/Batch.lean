import GraphWrites.Proofs.Plan.Statements

namespace GraphWrites

/-- A new edge as the database is told to write it. -/
structure EdgeWrite where
  reference : String
  type : String
  source : NodeId
  target : NodeId
  singleton : Bool
deriving DecidableEq, Repr

/-- The edges that a clause writes. Its ends are located by the node ids in their own rows, and the
arrow says at which of them the edge starts. -/
def Clause.writes (given : Parameters) : Clause → List (Option EdgeWrite)
  | connect singleton v source target type _ direction =>
    let ends := direction.orient source target
    let node (w : Variable) : Option NodeId := ((given.get? w.text).bind (Json.field? "nodeId")).bind Json.nodeId?
    [(node ends.1).bind fun first => (node ends.2).map fun last => ⟨v.text, type, first, last, singleton⟩]
  | _ => []

/-- The edges that a block writes, one for each row of the parameter that it names. -/
def LinkBlock.writes (given : Parameters) (b : LinkBlock) : List (Option EdgeWrite) :=
  given.rows b.parameter fun row =>
    ((row.field? "relRef").bind Json.text?).bind fun reference =>
      ((row.field? "startNodeId").bind Json.nodeId?).bind fun first =>
        ((row.field? "endNodeId").bind Json.nodeId?).map fun last => ⟨reference, b.type, first, last, b.singleton⟩

def Query.writes : Query → List (Option EdgeWrite)
  | script clauses rows => clauses.flatMap (Clause.writes (script clauses rows).parameters)
  | link blocks => blocks.flatMap (LinkBlock.writes (link blocks).parameters)
  | _ => []

def Rendering.writes (r : Rendering) : List (Option EdgeWrite) := r.queries.flatMap Query.writes

namespace Plan

def groupOf (b : LinkBlock) : LinkGroup := ⟨b.type, b.singleton⟩

theorem map_foldl_addBlock (groups : List (LinkGroup × List (LinkGroup × LinkRow))) (blocks : List LinkBlock) :
    (groups.foldl addBlock blocks).map (fun b => (groupOf b, b.rows)) =
      blocks.map (fun b => (groupOf b, b.rows)) ++ groups.map fun g => (g.1, g.2.map Prod.snd) := by
  induction groups generalizing blocks with
  | nil => simp
  | cons group groups ih =>
    rw [List.foldl_cons, ih, addBlock, List.map_append, List.append_assoc, List.map_cons (l := groups)]
    rfl

theorem get?_parameters_link {blocks : List LinkBlock} (named : Named blocks) {b : LinkBlock} (member : b ∈ blocks) :
    (Query.link blocks).parameters.get? b.parameter = some (.array (b.rows.map LinkRow.toJson)) := by
  refine (SortedMap.get?_ofList_eq_some_iff ?_).mpr (List.mem_map.mpr ⟨b, member, rfl⟩)
  rw [List.map_map]
  exact named.1

theorem isBatchable_iff {p : Plan} : p.isBatchable = true ↔
    p.config.batch = true ∧ p.removals = [] ∧ (∀ v n, p.nodes.get? v = some n → n.hasChanges = false) ∧
      (∀ v e, p.edges.get? v = some e → isPlainCreation e = true ∨ p.isSuperseded e = true) ∧
      ∃ v e, p.edges.get? v = some e ∧ isPlainCreation e = true := by
  simp only [isBatchable, Bool.and_eq_true, List.isEmpty_iff, List.all_eq_true, List.any_eq_true, Bool.or_eq_true,
    Bool.not_eq_true', SortedMap.mem_values, forall_exists_index, and_assoc]
  apply Iff.intro
  · intro h
    obtain ⟨batch, removals, nodes, edges, e, ⟨v, found⟩, plain⟩ := h
    exact ⟨batch, removals, fun v n => nodes n v, fun v e => edges e v, v, e, found, plain⟩
  · intro h
    obtain ⟨batch, removals, nodes, edges, v, e, found, plain⟩ := h
    exact ⟨batch, removals, fun n v => nodes v n, fun e v => edges v e, e, ⟨v, found⟩, plain⟩

theorem isPlainCreation_iff {e : EdgeIntent} :
    isPlainCreation e = true ↔ ∃ c, e = .create c ∧ c.entity = none ∧ c.props.isEmpty = true := by
  cases e <;> simp [isPlainCreation, NewEdge.needsOwnClause]

section Batchable

variable {p : Plan} {skipped : SortedSet Variable}

theorem node_of_batchable (batchable : p.isBatchable = true) {v : Variable} {n : NodeIntent}
    (found : p.nodes.get? v = some n) : ∃ s, n = .update s ∧ n.hasChanges = false := by
  have unchanged := (isBatchable_iff.mp batchable).2.2.1 v n found
  cases n with
  | create n => cases unchanged
  | update s => exact ⟨s, rfl, unchanged⟩

theorem introduced_of_touches {v : Variable} {e : EdgeIntent} (written : (p.writtenEdges skipped).get? v = some e)
    {a : Variable} {n : NodeIntent} (touches : e.touches a = true) (found : p.nodes.get? a = some n) :
    (a, n) ∈ p.writtenNodes (p.writtenEdges skipped).values :=
  mem_writtenNodes.mpr ⟨found, .inr (.inr (mem_joined.mpr ⟨e, SortedMap.mem_values.mpr ⟨v, written⟩, touches⟩))⟩

theorem joins_written (skips : p.skipped = .ok skipped) : ∀ entry ∈ (p.writtenEdges skipped).entries,
    ((p.writtenNodes (p.writtenEdges skipped).values).foldl Draft.introduce .empty).Joins entry.2 := by
  intro entry member ends given
  have written := SortedMap.get?_eq_some_iff.mpr member
  have known := unresolvedEnd?_eq_none_iff.mp (resolved_of_written skips written) ends given
  have reached : ∀ {v}, v = ends.1 ∨ v = ends.2 → p.isKnown v = true →
      ∃ a, v = some a ∧ ((p.writtenNodes (p.writtenEdges skipped).values).foldl Draft.introduce .empty).declared.contains
        a = true := by
    intro v place known
    obtain ⟨a, n, rfl, found⟩ := isKnown_iff.mp known
    refine ⟨a, rfl, (introduced (introduced_of_touches written ?_ found)).2⟩
    rw [EdgeIntent.touches, given]
    rcases place with here | here <;> simp [← here]
  exact ⟨reached (.inl rfl) known.1, reached (.inr rfl) known.2⟩

theorem clauses_draft (p : Plan) (skipped : SortedSet Variable) : (p.draft skipped).clauses =
    ((p.writtenNodes (p.writtenEdges skipped).values).foldl Draft.introduce .empty).clauses ++
      (Draft.drawnEdges (p.writtenEdges skipped).entries).map DrawnEdge.clause := by
  rw [draft, Draft.foldl_draw]

theorem renderSingly_of_batchable (batchable : p.isBatchable = true) (skips : p.skipped = .ok skipped) :
    p.renderSingly skipped = .ok (p.singly skipped) := by
  refine renderSingly_eq (fun e member => ?_) (joins_written skips)
  obtain ⟨s, same, -⟩ := node_of_batchable batchable (mem_writtenNodes.mp member).1
  rw [same]
  exact True.intro

end Batchable

end Plan

end GraphWrites
