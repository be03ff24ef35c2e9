import GraphWrites.Plan.Rendering
import GraphWrites.Proofs.Query.Parameters

namespace GraphWrites

namespace NodeIntent

def row : NodeIntent → Row
  | create n => .created (n.primaryKey.bind n.props.get?) n.props
  | update n => .stored n.node n.props

def HasKey : NodeIntent → Prop
  | create n => ∀ k, n.primaryKey = some k → n.props.contains k = true
  | update _ => True

def clauses (declared : SortedSet Variable) (v : Variable) : NodeIntent → List Clause
  | create n =>
    match n.primaryKey with
    | none => [.create v n.labels.toList]
    | some k => [.merge v n.labels.toList k]
  | update n => (if declared.isEmpty then [] else [.carry declared.toList]) ++ Draft.storedClauses v n

inductive WrittenWith (v : Variable) : NodeIntent → Clause → Prop where
  | create {n : NewNode} (plain : n.primaryKey = none) : WrittenWith v (create n) (.create v n.labels.toList)
  | merge {n : NewNode} {key : String} (keyed : n.primaryKey = some key) :
      WrittenWith v (create n) (.merge v n.labels.toList key)
  | carry {n : StoredNode} (vs : List Variable) : WrittenWith v (update n) (.carry vs)
  | locate {n : StoredNode} : WrittenWith v (update n) (.locate v)
  | removeLabels {n : StoredNode} : WrittenWith v (update n) (.removeLabels v n.removedLabels)
  | addLabels {n : StoredNode} : WrittenWith v (update n) (.addLabels v n.labels)
  | patch {n : StoredNode} : WrittenWith v (update n) (.patch v)

theorem writtenWith_of_mem {n : NodeIntent} {declared : SortedSet Variable} {v : Variable} {c : Clause}
    (member : c ∈ n.clauses declared v) : WrittenWith v n c := by
  cases n with
  | create n =>
    unfold clauses at member
    dsimp only at member
    split at member
    · rename_i plain
      rw [List.mem_singleton.mp member]
      exact .create plain
    · rename_i key keyed
      rw [List.mem_singleton.mp member]
      exact .merge keyed
  | update n =>
    simp only [clauses, Draft.storedClauses, List.mem_append, List.mem_ite_nil_left, List.mem_cons, List.not_mem_nil,
      or_false] at member
    obtain ⟨-, rfl⟩ | ((rfl | ⟨-, rfl⟩) | ⟨-, rfl⟩) | ⟨-, rfl⟩ := member
    · exact .carry _
    · exact .locate
    · exact .removeLabels
    · exact .addLabels
    · exact .patch

end NodeIntent

structure DrawnEdge where
  own : Variable
  singleton : Bool
  source : Variable
  target : Variable
  type : String
  props : PropertyRow
  direction : Direction

namespace DrawnEdge

def clause (x : DrawnEdge) : Clause :=
  .connect x.singleton x.own x.source x.target x.type x.props.keys x.direction

end DrawnEdge

/-- The edges an intent under `v` creates once both its ends are given. -/
def EdgeIntent.drawn (v : Variable) : EdgeIntent → List DrawnEdge
  | create e =>
    match e.source, e.target with
    | some a, some b => [⟨v, e.singleton, a, b, e.type, e.props, e.direction⟩]
    | _, _ => []
  | pair e =>
    match e.source, e.target with
    | some a, some b => [⟨v, false, a, b, e.type, e.props, .outgoing⟩, ⟨e.reverse, false, b, a, e.type, e.props, .outgoing⟩]
    | _, _ => []
  | _ => []

namespace Draft

def introduce (d : Draft) (entry : Variable × NodeIntent) : Draft :=
  { clauses := d.clauses ++ entry.2.clauses d.declared entry.1
    rows := d.rows.insert entry.1 entry.2.row
    declared := d.declared.insert entry.1
    returned := if entry.2.isNew then d.returned.insert entry.1 else d.returned }

def draw (d : Draft) (x : DrawnEdge) : Draft :=
  d.connect x.singleton x.own x.source x.target x.type x.props x.direction

theorem addNode_of_hasKey (d : Draft) {entry : Variable × NodeIntent} (key : entry.2.HasKey) :
    d.addNode entry = .ok (d.introduce entry) := by
  obtain ⟨v, n⟩ := entry
  cases n with
  | create n =>
    cases merges : n.primaryKey with
    | none =>
      simp [addNode, createNode, introduce, declare, NodeIntent.clauses, NodeIntent.row, NodeIntent.isNew, merges,
        Bind.bind, Except.bind, Pure.pure, Except.pure]
    | some k =>
      obtain ⟨value, set⟩ := SortedMap.contains_iff.mp (key k merges)
      simp [addNode, createNode, introduce, declare, NodeIntent.clauses, NodeIntent.row, NodeIntent.isNew, merges, set,
        Bind.bind, Except.bind, Pure.pure, Except.pure]
  | update n => simp [addNode, updateNode, introduce, declare, NodeIntent.clauses, NodeIntent.row, NodeIntent.isNew]

theorem hasKey_of_addNode {d d' : Draft} {entry : Variable × NodeIntent} (added : d.addNode entry = .ok d') :
    entry.2.HasKey := by
  obtain ⟨v, n⟩ := entry
  cases n with
  | create n =>
    intro k merges
    rw [SortedMap.contains]
    cases set : n.props.get? k with
    | none => simp [addNode, createNode, merges, set, Bind.bind, Except.bind] at added
    | some value => rfl
  | update n => exact True.intro

theorem addNode_eq_ok_iff {d d' : Draft} {entry : Variable × NodeIntent} :
    d.addNode entry = .ok d' ↔ entry.2.HasKey ∧ d' = d.introduce entry := by
  apply Iff.intro
  · intro added
    have key := hasKey_of_addNode added
    rw [addNode_of_hasKey d key] at added
    exact ⟨key, (Except.ok.inj added).symm⟩
  · intro h
    obtain ⟨key, rfl⟩ := h
    exact addNode_of_hasKey d key

theorem foldlM_addNode_eq_ok_iff {entries : List (Variable × NodeIntent)} {d d' : Draft} :
    entries.foldlM addNode d = .ok d' ↔ (∀ e ∈ entries, e.2.HasKey) ∧ d' = entries.foldl introduce d := by
  induction entries generalizing d with
  | nil => simp [Pure.pure, Except.pure, eq_comm]
  | cons e entries ih =>
    rw [List.foldlM_cons, List.foldl_cons]
    cases added : d.addNode e with
    | error failure =>
      simp only [Bind.bind, Except.bind, reduceCtorEq, false_iff]
      intro h
      obtain ⟨keys, -⟩ := h
      have succeeds := d.addNode_of_hasKey (keys e List.mem_cons_self)
      rw [added] at succeeds
      cases succeeds
    | ok next =>
      obtain ⟨key, rfl⟩ := addNode_eq_ok_iff.mp added
      simp only [Bind.bind, Except.bind, ih, List.forall_mem_cons, key, true_and]

theorem rows_foldl_introduce (entries : List (Variable × NodeIntent)) (d : Draft) :
    (entries.foldl introduce d).rows =
      (entries.map fun e => (e.1, e.2.row)).foldl (fun m e => m.insert e.1 e.2) d.rows := by
  induction entries generalizing d with
  | nil => rfl
  | cons e entries ih => exact ih (d.introduce e)

theorem declared_foldl_introduce (entries : List (Variable × NodeIntent)) (d : Draft) :
    (entries.foldl introduce d).declared = d.declared.insertMany (entries.map Prod.fst) := by
  induction entries generalizing d with
  | nil => rfl
  | cons e entries ih => exact ih (d.introduce e)

theorem returned_foldl_introduce (entries : List (Variable × NodeIntent)) (d : Draft) :
    (entries.foldl introduce d).returned =
      d.returned.insertMany ((entries.filter fun e => e.2.isNew).map Prod.fst) := by
  induction entries generalizing d with
  | nil => rfl
  | cons e entries ih =>
    rw [List.foldl_cons, ih, List.filter_cons]
    unfold introduce
    cases e.2.isNew <;> rfl

theorem mem_clauses_foldl_introduce {entries : List (Variable × NodeIntent)} {d : Draft} {c : Clause}
    (member : c ∈ (entries.foldl introduce d).clauses) :
    c ∈ d.clauses ∨ ∃ e ∈ entries, ∃ declared, c ∈ e.2.clauses declared e.1 := by
  induction entries generalizing d with
  | nil => exact .inl member
  | cons e entries ih =>
    rcases ih member with before | ⟨x, later, declared, here⟩
    · rcases List.mem_append.mp before with before | here
      · exact .inl before
      · exact .inr ⟨e, List.mem_cons_self, d.declared, here⟩
    · exact .inr ⟨x, List.mem_cons_of_mem _ later, declared, here⟩

def Joins (d : Draft) (e : EdgeIntent) : Prop :=
  ∀ ends, e.endpoints? = some ends →
    (∃ a, ends.1 = some a ∧ d.declared.contains a = true) ∧ ∃ b, ends.2 = some b ∧ d.declared.contains b = true

theorem endpoint_eq_ok_iff {d : Draft} {v : Variable} {type : String} {edgeEnd : EdgeEnd} {node : Option Variable}
    {a : Variable} : d.endpoint v type edgeEnd node = .ok a ↔ node = some a ∧ d.declared.contains a = true := by
  rw [endpoint]
  cases kept : node.filter d.declared.contains with
  | none =>
    simp only [reduceCtorEq, false_iff, not_and]
    intro same
    subst same
    simpa using kept
  | some b =>
    obtain ⟨rfl, known⟩ := Option.filter_eq_some_iff.mp kept
    simp only [Except.ok.injEq, Option.some_inj]
    apply Iff.intro
    · intro same
      subst same
      exact ⟨rfl, known⟩
    · exact And.left

theorem endpoint_of_declared {d : Draft} {v a : Variable} {type : String} {edgeEnd : EdgeEnd}
    (known : d.declared.contains a = true) : d.endpoint v type edgeEnd (some a) = .ok a :=
  endpoint_eq_ok_iff.mpr ⟨rfl, known⟩

theorem addEdge_of_joins (d : Draft) {entry : Variable × EdgeIntent} (joins : d.Joins entry.2) :
    d.addEdge entry = .ok ((entry.2.drawn entry.1).foldl draw d) := by
  obtain ⟨v, e⟩ := entry
  cases e with
  | create e =>
    obtain ⟨⟨a, ha, knownA⟩, b, hb, knownB⟩ := joins _ rfl
    dsimp only at ha hb
    simp [addEdge, ha, hb, endpoint_of_declared knownA, endpoint_of_declared knownB, EdgeIntent.drawn, draw, Bind.bind,
      Except.bind, Pure.pure, Except.pure]
  | pair e =>
    obtain ⟨⟨a, ha, knownA⟩, b, hb, knownB⟩ := joins _ rfl
    dsimp only at ha hb
    simp [addEdge, ha, hb, endpoint_of_declared knownA, endpoint_of_declared knownB, EdgeIntent.drawn, draw, Bind.bind,
      Except.bind, Pure.pure, Except.pure]
  | patch e => rfl
  | delete e => rfl

theorem joins_of_addEdge {d d' : Draft} {entry : Variable × EdgeIntent} (added : d.addEdge entry = .ok d') :
    d.Joins entry.2 := by
  obtain ⟨v, e⟩ := entry
  have ends : ∀ (type : String) (source target : Option Variable) (k : Variable → Variable → Draft),
      (d.endpoint v type .source source >>= fun a => d.endpoint v type .target target >>= fun b => pure (k a b)) =
        .ok d' →
      (∃ a, source = some a ∧ d.declared.contains a = true) ∧ ∃ b, target = some b ∧ d.declared.contains b = true := by
    intro type source target k succeeds
    cases first : d.endpoint v type .source source with
    | error failure => simp [first, Bind.bind, Except.bind] at succeeds
    | ok a =>
      cases second : d.endpoint v type .target target with
      | error failure => simp [first, second, Bind.bind, Except.bind] at succeeds
      | ok b => exact ⟨⟨a, endpoint_eq_ok_iff.mp first⟩, b, endpoint_eq_ok_iff.mp second⟩
  cases e with
  | create e =>
    intro ends given
    cases given
    exact ends e.type e.source e.target _ added
  | pair e =>
    intro ends given
    cases given
    exact ends e.type e.source e.target _ added
  | patch e =>
    intro ends given
    cases given
  | delete e =>
    intro ends given
    cases given

theorem addEdge_eq_ok_iff {d d' : Draft} {entry : Variable × EdgeIntent} :
    d.addEdge entry = .ok d' ↔ d.Joins entry.2 ∧ d' = (entry.2.drawn entry.1).foldl draw d := by
  apply Iff.intro
  · intro added
    have joins := joins_of_addEdge added
    rw [addEdge_of_joins d joins] at added
    exact ⟨joins, (Except.ok.inj added).symm⟩
  · intro h
    obtain ⟨joins, rfl⟩ := h
    exact addEdge_of_joins d joins

theorem foldl_draw (xs : List DrawnEdge) (d : Draft) :
    xs.foldl draw d =
      { clauses := d.clauses ++ xs.map DrawnEdge.clause
        rows := xs.foldl (fun m x => if x.props.isEmpty then m else m.insert x.own (.edge x.props)) d.rows
        declared := d.declared.insertMany (xs.map DrawnEdge.own)
        returned := d.returned.insertMany (xs.map DrawnEdge.own) } := by
  induction xs generalizing d with
  | nil => simp [SortedSet.insertMany]
  | cons x xs ih =>
    rw [List.foldl_cons, ih]
    simp [draw, connect, declare, DrawnEdge.clause, SortedSet.insertMany]

theorem declared_foldl_draw {xs : List DrawnEdge} {d : Draft} {v : Variable}
    (known : d.declared.contains v = true) : (xs.foldl draw d).declared.contains v = true := by
  rw [foldl_draw, SortedSet.contains_insertMany, known, Bool.or_true]

def drawnEdges (entries : List (Variable × EdgeIntent)) : List DrawnEdge := entries.flatMap fun e => e.2.drawn e.1

theorem foldlM_addEdge_of_joins {entries : List (Variable × EdgeIntent)} {d : Draft}
    (joins : ∀ e ∈ entries, d.Joins e.2) :
    entries.foldlM addEdge d = .ok ((drawnEdges entries).foldl draw d) := by
  induction entries generalizing d with
  | nil => rfl
  | cons e entries ih =>
    have first := joins e List.mem_cons_self
    rw [List.foldlM_cons, addEdge_of_joins d first, drawnEdges, List.flatMap_cons, List.foldl_append]
    refine ih fun x member ends given => ?_
    obtain ⟨⟨a, ha, knownA⟩, b, hb, knownB⟩ := joins x (List.mem_cons_of_mem _ member) ends given
    exact ⟨⟨a, ha, declared_foldl_draw knownA⟩, b, hb, declared_foldl_draw knownB⟩

theorem eq_of_foldlM_addEdge {entries : List (Variable × EdgeIntent)} {d d' : Draft}
    (added : entries.foldlM addEdge d = .ok d') : d' = (drawnEdges entries).foldl draw d := by
  induction entries generalizing d with
  | nil => exact (Except.ok.inj added).symm
  | cons e entries ih =>
    rw [List.foldlM_cons] at added
    cases step : d.addEdge e with
    | error failure => simp [step, Bind.bind, Except.bind] at added
    | ok next =>
      obtain ⟨-, rfl⟩ := addEdge_eq_ok_iff.mp step
      rw [step] at added
      rw [drawnEdges, List.flatMap_cons, List.foldl_append]
      exact ih added

/-- The rows of a draft are exactly those that its clauses read. -/
def Balanced (d : Draft) : Prop := ∀ v, d.rows.contains v = true ↔ ∃ c ∈ d.clauses, v ∈ c.uses

theorem uses_clauses (declared : SortedSet Variable) (v : Variable) (n : NodeIntent) (w : Variable) :
    (∃ c ∈ n.clauses declared v, w ∈ c.uses) ↔ w = v := by
  apply Iff.intro
  · intro h
    obtain ⟨c, member, used⟩ := h
    cases NodeIntent.writtenWith_of_mem member <;> simp_all [Clause.uses]
  · intro same
    subst same
    cases n with
    | create n => cases merges : n.primaryKey <;> simp [NodeIntent.clauses, merges, Clause.uses]
    | update n => exact ⟨.locate w, List.mem_append_right _ List.mem_cons_self, List.mem_singleton_self w⟩

theorem Balanced.introduce {d : Draft} (balanced : d.Balanced) (entry : Variable × NodeIntent) :
    (d.introduce entry).Balanced := by
  intro v
  simp only [Draft.introduce, SortedMap.contains_insert, Bool.or_eq_true, decide_eq_true_eq, balanced v,
    List.mem_append, or_and_right, exists_or, uses_clauses]
  exact or_comm

theorem Balanced.draw {d : Draft} (balanced : d.Balanced) (x : DrawnEdge) : (d.draw x).Balanced := by
  intro v
  simp only [Draft.draw, connect, declare, List.mem_append, List.mem_singleton, or_and_right, exists_or,
    exists_eq_left, ← balanced v]
  have keys : x.props.isEmpty = true ↔ x.props.keys = [] := by simp [SortedMap.isEmpty, SortedMap.keys]
  by_cases empty : x.props.isEmpty = true
  · simp [empty, Clause.uses, keys.mp empty]
  · have some : x.props.keys ≠ [] := fun none => empty (keys.mpr none)
    obtain ⟨k, member⟩ := List.exists_mem_of_ne_nil _ some
    have used : v ∈ x.props.keys.map (fun _ => x.own) ↔ v = x.own := by
      rw [List.mem_map]
      apply Iff.intro
      · intro h
        obtain ⟨_, _, same⟩ := h
        exact same.symm
      · intro same
        exact ⟨k, member, same.symm⟩
    rw [if_neg empty, Clause.uses, used, SortedMap.contains_insert, Bool.or_eq_true, decide_eq_true_eq]
    exact or_comm

def RowsFrom (given : Variable → Row → Prop) (d : Draft) : Prop := ∀ v row, d.rows.get? v = some row → given v row

theorem RowsFrom.introduce {given : Variable → Row → Prop} {d : Draft} (rows : d.RowsFrom given)
    {entry : Variable × NodeIntent} (own : given entry.1 entry.2.row) : (d.introduce entry).RowsFrom given := by
  intro v row found
  rw [Draft.introduce, SortedMap.get?_insert] at found
  split at found
  · rename_i here
    subst here
    exact Option.some_inj.mp found ▸ own
  · exact rows v row found

theorem RowsFrom.draw {given : Variable → Row → Prop} {d : Draft} (rows : d.RowsFrom given) {x : DrawnEdge}
    (own : given x.own (.edge x.props)) : (d.draw x).RowsFrom given := by
  intro v row found
  simp only [Draft.draw, connect, declare] at found
  split at found
  · exact rows v row found
  · rw [SortedMap.get?_insert] at found
    split at found
    · rename_i here
      subst here
      exact Option.some_inj.mp found ▸ own
    · exact rows v row found

end Draft

end GraphWrites
