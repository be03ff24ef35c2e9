import GraphWrites.Proofs.Plan.Ownership
import GraphWrites.Proofs.Plan.Rendering
import GraphWrites.Proofs.Query.Rows

namespace GraphWrites

def NoMismatch {α : Type} (x : Except Failure α) : Prop := ∀ m, x ≠ .error (.mismatch m)

namespace NoMismatch

variable {α β : Type}

theorem ok (a : α) : NoMismatch (.ok a) := by
  intro m fails
  cases fails

theorem bind {x : Except Failure α} {f : α → Except Failure β} (first : NoMismatch x) (next : ∀ a, NoMismatch (f a)) :
    NoMismatch (x >>= f) := by
  cases x with
  | error failure =>
    intro m fails
    exact first m (congrArg Except.error (Except.error.inj fails))
  | ok a => exact next a

theorem map {x : Except Failure α} (first : NoMismatch x) (f : α → β) : NoMismatch (x.map f) := first.bind fun a => ok (f a)

theorem foldlM {f : β → α → Except Failure β} (step : ∀ b a, NoMismatch (f b a)) (xs : List α) (b : β) :
    NoMismatch (xs.foldlM f b) := by
  induction xs generalizing b with
  | nil => exact ok b
  | cons x xs ih =>
    rw [List.foldlM_cons]
    exact (step b x).bind ih

theorem mapM {f : α → Except Failure β} (step : ∀ a, NoMismatch (f a)) (xs : List α) : NoMismatch (xs.mapM f) := by
  induction xs with
  | nil => exact ok []
  | cons x xs ih =>
    rw [List.mapM_cons]
    exact (step x).bind fun b => ih.bind fun bs => ok (b :: bs)

end NoMismatch

theorem Journal.noMismatch_call (j : Journal) (c : JournalCall) : NoMismatch (j.call c) := by
  have reported : ∀ row, NoMismatch (j.reported row) := by
    intro row m fails
    unfold Journal.reported at fails
    split at fails <;> cases fails
  cases c with
  | applyIds rows =>
    rw [call_applyIds, applyIds_eq]
    exact ((NoMismatch.mapM reported rows).map _).map _
  | _ => exact .ok _

namespace Draft

theorem noMismatch_addNode (d : Draft) (entry : Variable × NodeIntent) : NoMismatch (d.addNode entry) := by
  obtain ⟨v, n⟩ := entry
  intro m fails
  cases n with
  | create n =>
    cases merges : n.primaryKey with
    | none => simp [addNode, createNode, merges, Bind.bind, Except.bind, Pure.pure, Except.pure] at fails
    | some k =>
      cases set : n.props.get? k <;>
        simp [addNode, createNode, merges, set, Bind.bind, Except.bind, Pure.pure, Except.pure] at fails
  | update n => cases fails

theorem noMismatch_addEdge (d : Draft) (entry : Variable × EdgeIntent) : NoMismatch (d.addEdge entry) := by
  have endpoint : ∀ v type edgeEnd node, NoMismatch (d.endpoint v type edgeEnd node) := by
    intro v type edgeEnd node m fails
    unfold Draft.endpoint at fails
    split at fails <;> cases fails
  obtain ⟨v, e⟩ := entry
  cases e with
  | create e => exact (endpoint _ _ _ _).bind fun _ => (endpoint _ _ _ _).bind fun _ => .ok _
  | pair e => exact (endpoint _ _ _ _).bind fun _ => (endpoint _ _ _ _).bind fun _ => .ok _
  | patch e => exact .ok _
  | delete e => exact .ok _

end Draft

namespace Plan

theorem noMismatch_render (p : Plan) : NoMismatch p.render := by
  have skips : NoMismatch p.skipped := by
    intro m fails
    unfold skipped at fails
    split at fails <;> cases fails
  refine skips.bind fun vs => ?_
  split
  · exact .ok _
  · exact (NoMismatch.foldlM Draft.noMismatch_addNode _ _).bind fun _ =>
      (NoMismatch.foldlM Draft.noMismatch_addEdge _ _).bind fun _ => .ok _

/-- Blocks name different parameters, all of which can stand behind a `$`. -/
def Named (blocks : List LinkBlock) : Prop :=
  (blocks.map LinkBlock.parameter).Nodup ∧ ∀ b ∈ blocks, Placeholder.IsParameter b.parameter

theorem Named.addBlock {blocks : List LinkBlock} (named : Named blocks) (group : LinkGroup × List (LinkGroup × LinkRow)) :
    Named (addBlock blocks group) := by
  obtain ⟨distinct, parameters⟩ := named
  obtain ⟨key, rows⟩ := group
  have free := Name.fresh_not_mem (Name.rowsParameter key.type) (blocks.map LinkBlock.parameter)
  constructor
  · rw [Plan.addBlock, List.map_append, List.nodup_append]
    refine ⟨distinct, List.nodup_singleton _, fun name member other last same => ?_⟩
    rw [List.map_singleton, List.mem_singleton] at last
    rw [same, last] at member
    exact free member
  · intro b member
    rcases List.mem_append.mp member with member | member
    · exact parameters b member
    · rw [List.mem_singleton.mp member]
      exact Query.isParameter_fresh (Query.isParameter_rowsParameter key.type) _

theorem named_foldl_addBlock (groups : List (LinkGroup × List (LinkGroup × LinkRow))) :
    Named (groups.foldl addBlock []) := by
  refine List.foldlRecOn _ _ ⟨List.nodup_nil, fun b member => absurd member List.not_mem_nil⟩ ?_
  intro blocks named group _
  exact named.addBlock group

theorem named_linkBlocks (rows : List (LinkGroup × LinkRow)) : Named (linkBlocks rows) := named_foldl_addBlock _

theorem balanced_draft (p : Plan) (skipped : SortedSet Variable) : (p.draft skipped).Balanced := by
  refine p.draft_induction skipped (fun v => ?_) (fun d balanced e _ => ?_) fun d balanced x _ => ?_
  · simp [Draft.empty]
  · exact balanced.introduce e
  · exact balanced.draw x

theorem matched_script? {d : Draft} (balanced : d.Balanced) {q : Query} (written : d.script? = some q) : q.Matched := by
  obtain ⟨-, rfl⟩ := Draft.script?_eq_some_iff.mp written
  intro v
  rw [balanced v]
  simp only [List.mem_append, or_and_right, exists_or]
  -- the report at the end reads no row
  refine (or_iff_left ?_).symm
  intro h
  obtain ⟨c, member, used⟩ := h
  rw [Draft.of_mem_report member] at used
  cases used

theorem matched_singly (p : Plan) (skipped : SortedSet Variable) : ∀ q ∈ (p.singly skipped).queries, q.Matched := by
  intro q member
  rcases mem_queries_singly.mp member with written | patched | deleted
  · exact matched_script? (p.balanced_draft skipped) written
  · obtain ⟨type, rows, rfl⟩ := of_mem_patches patched
    exact True.intro
  · rcases of_mem_deletions deleted with ⟨type, rows, rfl⟩ | ⟨type, rows, rfl⟩
    · exact True.intro
    · exact True.intro

theorem matched_renderBatch (p : Plan) (skipped : SortedSet Variable) :
    ∀ q ∈ (p.renderBatch skipped).queries, q.Matched := by
  intro q member
  obtain ⟨-, rfl⟩ := mem_queries_renderBatch.mp member
  exact (named_linkBlocks _).2

theorem matched_of_render {p : Plan} {r : Rendering} (rendered : p.render = .ok r) : ∀ q ∈ r.queries, q.Matched := by
  obtain ⟨skipped, -, ⟨-, rfl⟩ | ⟨-, rfl⟩⟩ := render_cases rendered
  · exact p.matched_renderBatch skipped
  · exact p.matched_singly skipped

end Plan

def Query.spelled (q : Query) : Statement := ⟨q.text, q.parameters⟩

theorem Rendering.statements_eq {r : Rendering} (matched : ∀ q ∈ r.queries, q.Matched) :
    r.statements = .ok (r.queries.map Query.spelled) := by
  unfold statements
  generalize r.queries = queries at matched
  induction queries with
  | nil => rfl
  | cons q queries ih =>
    have rest := ih fun x member => matched x (List.mem_cons_of_mem _ member)
    rw [List.mapM_cons, q.statement_eq_ok (matched q List.mem_cons_self), rest]
    rfl

namespace Plan

theorem statements_eq {p : Plan} {r : Rendering} (rendered : p.render = .ok r) :
    p.statements = .ok (r.queries.map Query.spelled) := by
  unfold statements
  rw [rendered]
  exact Rendering.statements_eq (matched_of_render rendered)

theorem compile_eq {p : Plan} {r : Rendering} (rendered : p.render = .ok r) :
    p.compile = .ok (
      { p.journal with
        ledger := p.recreated.toList.foldl Ledger.restore p.journal.ledger
        returned := r.returned
        statements := r.queries.map Query.spelled },
      { ofConfig p.config with supply := p.supply.releaseAll p.owned }) := by
  have made := Rendering.statements_eq (matched_of_render rendered)
  rw [compile_eq_bind]
  simp only [rendered, made, Bind.bind, Except.bind]
  rfl

theorem noMismatch_statements (p : Plan) : NoMismatch p.statements := by
  cases rendered : p.render with
  | error failure =>
    unfold statements
    rw [rendered]
    intro m fails
    exact p.noMismatch_render m (rendered.trans (congrArg Except.error (Except.error.inj fails)))
  | ok r =>
    rw [statements_eq rendered]
    exact .ok _

theorem noMismatch_compile (p : Plan) : NoMismatch p.compile := by
  cases rendered : p.render with
  | error failure =>
    rw [compile_eq_bind, rendered]
    intro m fails
    exact p.noMismatch_render m (rendered.trans (congrArg Except.error (Except.error.inj fails)))
  | ok r =>
    rw [compile_eq rendered]
    exact .ok _

theorem noMismatch_call (p : Plan) (c : PlanCall) : NoMismatch (p.call c) := by
  cases c with
  | statements =>
    rw [call_statements]
    exact p.noMismatch_statements.map _
  | compile =>
    rw [call_compile]
    exact p.noMismatch_compile.map _
  | journal c =>
    rw [call_journal]
    exact (p.journal.noMismatch_call c).map _
  | _ => exact .ok _

/-- The row of the intent that a variable belongs to. -/
def OwnRow (p : Plan) (v : Variable) (row : Row) : Prop :=
  (∃ n, p.nodes.get? v = some n ∧ row = n.row) ∨
    ∃ w e props, p.edges.get? w = some e ∧ v ∈ e.owned w ∧ e.props? = some props ∧ row = .edge props

/-- What a parameter of a script holds for the intent that a variable belongs to. -/
inductive OwnFields (p : Plan) (v : Variable) (json : Json) : Prop where
  | created {n : NewNode} (found : p.nodes.get? v = some (.create n)) (node : json.field? "nodeId" = none)
      (key : json.field? "primaryKey" = (n.primaryKey.bind n.props.get?).map Value.toJson)
      (props : json.props? = some n.props.asJson)
  | stored {n : StoredNode} (found : p.nodes.get? v = some (.update n))
      (node : (json.field? "nodeId").bind Json.nodeId? = some n.node) (key : json.field? "primaryKey" = none)
      (props : json.props? = if n.props.isEmpty then none else some n.props.asJson)
  | edge {w : Variable} {e : EdgeIntent} {props : PropertyRow} (found : p.edges.get? w = some e) (own : v ∈ e.owned w)
      (given : e.props? = some props) (node : json.field? "nodeId" = none) (key : json.field? "primaryKey" = none)
      (props : json.props? = some props.asJson)

theorem OwnRow.fields {p : Plan} {v : Variable} {row : Row} (own : p.OwnRow v row) : p.OwnFields v row.toJson := by
  rcases own with ⟨n, found, rfl⟩ | ⟨w, e, props, found, member, given, rfl⟩
  · cases n with
    | create n =>
      change p.OwnFields v (Row.created (n.primaryKey.bind n.props.get?) n.props).toJson
      have props := congrArg some n.props.ofList_fields
      cases key : n.primaryKey.bind n.props.get? with
      | none => exact .created found rfl (by rw [key]; rfl) props
      | some value => exact .created found rfl (by rw [key]; rfl) props
    | update n =>
      refine .stored found (Json.nodeId?_int n.node) ?_ ?_
      · cases empty : n.props.isEmpty <;> simp [NodeIntent.row, Row.toJson, Json.field?, empty]
      · have given : (NodeIntent.update n).row.toJson.field? "props" =
            if n.props.isEmpty then none else some n.props.toJson := by
          cases empty : n.props.isEmpty <;> simp [NodeIntent.row, Row.toJson, Json.field?, empty]
        rw [Json.props?, given]
        split
        · rfl
        · exact congrArg some n.props.ofList_fields
  · exact .edge found member given rfl rfl (congrArg some props.ofList_fields)

theorem Owned.ownRow_unique {p : Plan} (owned : p.Owned) {v : Variable} {one other : Row} (first : p.OwnRow v one)
    (second : p.OwnRow v other) : one = other := by
  rcases first with ⟨n, found, rfl⟩ | ⟨w, e, props, found, member, given, rfl⟩ <;>
    rcases second with ⟨m, again, rfl⟩ | ⟨u, d, others, again, inside, also, rfl⟩
  · rw [found] at again
    cases again
    rfl
  · cases owned.unique (.node v) (.edge u) v (holds_node_self found) ⟨d, again, inside⟩
  · cases owned.unique (.node v) (.edge w) v (holds_node_self again) ⟨e, found, member⟩
  · cases owned.unique (.edge w) (.edge u) v ⟨e, found, member⟩ ⟨d, again, inside⟩
    rw [found] at again
    cases again
    rw [given] at also
    cases also
    rfl

theorem own_of_mem_drawn {e : EdgeIntent} {v : Variable} {x : DrawnEdge} (member : x ∈ e.drawn v) :
    x.own ∈ e.owned v ∧ e.props? = some x.props := by
  cases e with
  | create e =>
    unfold EdgeIntent.drawn at member
    dsimp only at member
    split at member
    · rw [List.mem_singleton] at member
      subst member
      exact ⟨List.mem_cons_self, rfl⟩
    · cases member
  | pair e =>
    unfold EdgeIntent.drawn at member
    dsimp only at member
    split at member
    · rcases List.mem_pair.mp member with rfl | rfl
      · exact ⟨List.mem_cons_self, rfl⟩
      · exact ⟨List.mem_cons_of_mem _ List.mem_cons_self, rfl⟩
    · cases member
  | patch e => cases member
  | delete e => cases member

theorem rowsFrom_draft (p : Plan) (skipped : SortedSet Variable) : (p.draft skipped).RowsFrom p.OwnRow := by
  refine p.draft_induction skipped (fun v row found => ?_) (fun d rows e member => ?_) fun d rows x member => ?_
  · cases found
  · exact rows.introduce (.inl ⟨e.2, (mem_writtenNodes.mp member).1, rfl⟩)
  · obtain ⟨⟨v, e⟩, written, member⟩ := List.mem_flatMap.mp member
    obtain ⟨found, -⟩ := get?_writtenEdges_eq_some_iff.mp (SortedMap.get?_eq_some_iff.mpr written)
    obtain ⟨own, props⟩ := own_of_mem_drawn member
    exact rows.draw (.inr ⟨v, e, x.props, found, own, props, rfl⟩)

theorem rowsFrom_of_render {p : Plan} {r : Rendering} (rendered : p.render = .ok r) {clauses : List Clause}
    {rows : SortedMap Variable Row} (member : .script clauses rows ∈ r.queries) {v : Variable} {row : Row}
    (found : rows.get? v = some row) : p.OwnRow v row := by
  obtain ⟨skipped, -, ⟨-, rfl⟩ | ⟨-, rfl⟩⟩ := render_cases rendered
  · cases (mem_queries_renderBatch.mp member).2
  · rcases mem_queries_singly.mp member with written | patched | deleted
    · obtain ⟨-, same⟩ := Draft.script?_eq_some_iff.mp written
      cases same
      exact p.rowsFrom_draft skipped v row found
    · obtain ⟨_, _, same⟩ := of_mem_patches patched
      cases same
    · rcases of_mem_deletions deleted with ⟨_, _, same⟩ | ⟨_, _, same⟩ <;> cases same

/-- No call on a reachable plan fails because a statement's parameters are out of step with its text.
Every statement that a rendering makes has exactly the parameters behind the `$` signs of its text, and each
parameter of a script is the row of the one intent that its variable belongs to. -/
theorem statements_have_own_parameters {p : Plan} (reached : p.Reachable) :
    (∀ c m, p.call c ≠ .error (.mismatch m)) ∧
      ∀ r, p.render = .ok r →
        (∃ ss, p.statements = .ok ss ∧ r.statements = .ok ss ∧ ss = r.queries.map Query.spelled ∧
          ∀ s ∈ ss, (Placeholder.ofText s.text).toList = s.parameters.keys) ∧
        ∀ clauses rows, .script clauses rows ∈ r.queries →
          ∀ name json, (Query.script clauses rows).parameters.get? name = some json →
            ∃ v row, name = v.text ∧ json = row.toJson ∧ p.OwnRow v row ∧ (∀ other, p.OwnRow v other → other = row) ∧
              p.OwnFields v json := by
  obtain ⟨c, calls, rfl⟩ := reached
  have owned := Owned.after c calls
  refine ⟨noMismatch_call _, fun r rendered => ⟨⟨_, statements_eq rendered, ?_, rfl, ?_⟩, ?_⟩⟩
  · exact Rendering.statements_eq (matched_of_render rendered)
  · intro s member
    obtain ⟨q, rendering, rfl⟩ := List.mem_map.mp member
    exact q.placeholders_eq_keys (matched_of_render rendered q rendering)
  · intro clauses rows member name json given
    obtain ⟨v, row, found, rfl, rfl⟩ := (Query.get?_parameters_script clauses).mp given
    have own := rowsFrom_of_render rendered member found
    exact ⟨v, row, rfl, rfl, own, fun other also => owned.ownRow_unique also own, own.fields⟩

def oddLabel : Plan := (ofConfig .default).after [.node (.new ⟨1⟩) [.addLabel "$a`b", .setProperty "k" (.int 3)]]

theorem oddLabel_statements : ∃ ss clauses rows json, oddLabel.statements = .ok ss ∧
    ss.map Statement.text = ["CREATE (_0:`$a``b`) SET _0 = $_0.props RETURN id(_0) AS _0"] ∧
    (∀ s ∈ ss, (Placeholder.ofText s.text).toList = s.parameters.keys) ∧
    ss.map Statement.parameters = [(Query.script clauses rows).parameters] ∧
    (Query.script clauses rows).parameters.get? "_0" = some json ∧
    json.props? = some (.ofList [("k", .int 3)]) ∧ json.field? "primaryKey" = none := by
  obtain ⟨r, rendered⟩ : ∃ r, oddLabel.render = .ok r := ⟨_, rfl⟩
  have reached : oddLabel.Reachable := ⟨_, _, rfl⟩
  obtain ⟨-, all⟩ := statements_have_own_parameters reached
  obtain ⟨⟨ss, made, -, spelled, keys⟩, own⟩ := all r rendered
  have texts : oddLabel.statements.map (List.map Statement.text) =
      .ok ["CREATE (_0:`$a``b`) SET _0 = $_0.props RETURN id(_0) AS _0"] := by rfl
  rw [made] at texts
  obtain ⟨clauses, rows, queries⟩ : ∃ clauses rows, r.queries = [.script clauses rows] := by
    cases rendered
    exact ⟨_, _, rfl⟩
  obtain ⟨json, given⟩ : ∃ json, (Query.script clauses rows).parameters.get? "_0" = some json := by
    cases rendered
    cases queries
    exact ⟨_, rfl⟩
  have script : .script clauses rows ∈ r.queries := queries ▸ List.mem_singleton_self _
  obtain ⟨v, row, name, -, -, -, fields⟩ := own clauses rows script "_0" json given
  obtain rfl : ⟨0⟩ = v := Variable.text_injective name
  refine ⟨ss, clauses, rows, json, made, Except.ok.inj texts, keys, ?_, given, ?_⟩
  · rw [spelled, queries]
    rfl
  · cases fields with
    | created found node key props =>
      cases found
      exact ⟨props, key⟩
    | stored found => cases found
    | edge found => cases found

end Plan

end GraphWrites
