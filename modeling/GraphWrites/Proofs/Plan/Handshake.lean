import GraphWrites.Proofs.Journal.Identity
import GraphWrites.Proofs.Plan.Phases

namespace GraphWrites

def NodeIntent.entity? : NodeIntent → Option Entity
  | create n => some n.entity
  | update _ => none

def EdgeIntent.entity? : EdgeIntent → Option Entity
  | create e => e.entity
  | patch _ | delete _ | pair _ => none

theorem NodeIntent.entity?_editAll (n : NodeIntent) (edits : List NodeEdit) : (n.editAll edits).entity? = n.entity? :=
  editAll_keeps (fun n edit => by cases n <;> cases edit <;> rfl) n edits

theorem EdgeIntent.entity?_editAll (e : EdgeIntent) (edits : List EdgeEdit) : (e.editAll edits).entity? = e.entity? :=
  editAll_keeps (fun e edit => by cases e <;> cases edit <;> rfl) e edits

theorem Journal.get?_created_foldl_forgetEdge (vs : List Variable) (j : Journal) (w : Variable) :
    (vs.foldl Journal.forgetEdge j).created.get? w = if w ∈ vs then none else j.created.get? w := by
  induction vs generalizing j with
  | nil => simp
  | cons v vs ih =>
    rw [List.foldl_cons, ih]
    change (if w ∈ vs then none else (j.created.erase v).get? w) = _
    rw [SortedMap.get?_erase]
    by_cases here : w = v <;> simp [here]

namespace Plan

def creates? (p : Plan) (v : Variable) : Option Entity :=
  ((p.nodes.get? v).bind NodeIntent.entity?).or ((p.edges.get? v).bind EdgeIntent.entity?)

/-- The journal's log of created objects is the one of the plan. -/
def Logged (p : Plan) : Prop := ∀ v, p.journal.created.get? v = p.creates? v

namespace Logged

variable {p q : Plan}

theorem congr (logged : p.Logged) (created : q.journal.created = p.journal.created)
    (nodes : ∀ v, (q.nodes.get? v).bind NodeIntent.entity? = (p.nodes.get? v).bind NodeIntent.entity?)
    (edges : ∀ v, (q.edges.get? v).bind EdgeIntent.entity? = (p.edges.get? v).bind EdgeIntent.entity?) : q.Logged := by
  intro v
  rw [created, creates?, nodes, edges]
  exact logged v

theorem insertNode (logged : p.Logged) {v : Variable} (free : p.Free v) {n : NodeIntent}
    (nodes : q.nodes = p.nodes.insert v n) (edges : q.edges = p.edges)
    (created : ∀ w, q.journal.created.get? w = if w = v then n.entity? else p.journal.created.get? w) : q.Logged := by
  intro w
  rw [created, creates?, nodes, edges, SortedMap.get?_insert]
  split
  · rename_i here
    rw [here, free.edges]
    simp
  · exact logged w

theorem insertEdge (logged : p.Logged) {v : Variable} (free : p.Free v) {e : EdgeIntent}
    (nodes : q.nodes = p.nodes) (edges : q.edges = p.edges.insert v e)
    (created : ∀ w, q.journal.created.get? w = if w = v then e.entity? else p.journal.created.get? w) : q.Logged := by
  intro w
  rw [created, creates?, nodes, edges, SortedMap.get?_insert]
  split
  · rename_i here
    rw [here, free.nodes]
    rfl
  · exact logged w

theorem absent_of_free (logged : p.Logged) {v : Variable} (free : p.Free v) : p.journal.created.get? v = none := by
  rw [logged, creates?, free.nodes, free.edges]
  rfl

theorem same_of_free (logged : p.Logged) {v : Variable} (free : p.Free v) (w : Variable) :
    p.journal.created.get? w = if w = v then none else p.journal.created.get? w := by
  split
  · rename_i here
    rw [here, logged.absent_of_free free]
  · rfl

theorem releaseEdge (logged : p.Logged) {v : Variable} {e : EdgeIntent}
    (own : ∀ a, ∀ w ∈ e.owned v, p.Holds a w → a = .edge v) (nodes : q.nodes = p.nodes) (edges : q.edges = p.edges.erase v)
    (created : q.journal.created = ((e.owned v).foldl Journal.forgetEdge p.journal).created) : q.Logged := by
  intro w
  rw [created, creates?, nodes, edges, Journal.get?_created_foldl_forgetEdge, SortedMap.get?_erase]
  split
  · rename_i member
    have nodes : p.nodes.get? w = none := get?_nodes_of_absent fun held => by cases own _ w member held
    rw [nodes]
    split
    · rfl
    · rename_i other
      have edges : p.edges.get? w = none := get?_edges_of_absent fun held => by
        cases own _ w member held
        exact other rfl
      rw [edges]
      rfl
  · rename_i apart
    have other : w ≠ v := fun same => apart (same ▸ e.mem_owned_self v)
    rw [if_neg other]
    exact logged w

theorem eraseNode (logged : p.Logged) {v : Variable} {n : StoredNode} (found : p.nodes.get? v = some (.update n))
    (nodes : q.nodes = p.nodes.erase v) (edges : q.edges = p.edges) (created : q.journal.created = p.journal.created) :
    q.Logged := by
  refine logged.congr created (fun w => ?_) fun _ => by rw [edges]
  rw [nodes, SortedMap.get?_erase]
  split
  · rename_i here
    rw [here, found]
    rfl
  · rfl

theorem change {named : Subject → Prop} (changed : Change named p q) (logged : p.Logged) : q.Logged := by
  have noted : ∀ (e : Entity) (v w : Variable), ((p.journal.visit e v).addCreated v e).created.get? w =
      if w = v then some e else p.journal.created.get? w := fun e v w => SortedMap.get?_insert _ _ _ _
  cases changed with
  | createNode free e => exact logged.insertNode free rfl rfl (noted e _)
  | storeNode free e n => exact logged.insertNode free rfl rfl (logged.same_of_free free)
  | revisitNode e v => exact logged
  | editNode v edits =>
    exact logged.congr rfl (SortedMap.bind_get?_modify (fun n => n.entity?_editAll edits) p.nodes v) fun _ => rfl
  | newEdge free => exact logged.insertEdge free rfl rfl (logged.same_of_free free)
  | linkEdge free => exact logged.insertEdge free rfl rfl (logged.same_of_free free)
  | objectEdge free e => exact logged.insertEdge free rfl rfl (noted e _)
  | pairEdge free => exact logged.insertEdge free rfl rfl (logged.same_of_free free)
  | patchEdge free => exact logged.insertEdge free rfl rfl (logged.same_of_free free)
  | deleteEdge free => exact logged.insertEdge free rfl rfl (logged.same_of_free free)
  | editEdge v edits =>
    exact logged.congr rfl (fun _ => rfl) (SortedMap.bind_get?_modify (fun e => e.entity?_editAll edits) p.edges v)
  | release found own => exact logged.releaseEdge own rfl rfl rfl
  | unmap found => exact logged.eraseNode found rfl rfl rfl
  | compile =>
    intro v
    rfl

end Logged

end Plan

theorem Journal.indexes_of_call {j k : Journal} {c : JournalCall} {a : JournalAnswer} (stays : c ≠ .takeStatements)
    (called : j.call c = .ok (a, k)) :
    (k.visited = j.visited ∨ ∃ e v, c = .visit e v) ∧ (k.created = j.created ∨ ∃ v e, c = .addCreated v e) ∧
      ∀ l v, k.links.get? l = some v → j.links.get? l = some v ∨ c = .addLink l v := by
  cases c with
  | visit e v =>
    cases called
    exact ⟨.inr ⟨e, v, rfl⟩, .inl rfl, fun _ _ => .inl⟩
  | addCreated v e =>
    cases called
    exact ⟨.inl rfl, .inr ⟨v, e, rfl⟩, fun _ _ => .inl⟩
  | addLink l v =>
    cases called
    refine ⟨.inl rfl, .inl rfl, fun m w found => ?_⟩
    change (j.links.insert l v).get? m = some w at found
    rw [SortedMap.get?_insert] at found
    split at found
    · rename_i same
      cases found
      exact .inr (same ▸ rfl)
    · exact .inl found
  | forgetLinks v =>
    cases called
    refine ⟨.inl rfl, .inl rfl, fun m w found => ?_⟩
    change (j.links.filter _).get? m = some w at found
    rw [SortedMap.get?_filter, Option.filter_eq_some_iff] at found
    exact .inl found.1
  | takeStatements => exact absurd rfl stays
  | applyIds rows =>
    rw [call_applyIds, applyIds_eq] at called
    cases read : rows.mapM j.reported with
    | error failure =>
      rw [read] at called
      cases called
    | ok es =>
      rw [read] at called
      cases called
      exact ⟨.inl rfl, .inl rfl, fun _ _ => .inl⟩
  | _ =>
    cases called
    exact ⟨.inl rfl, .inl rfl, fun _ _ => .inl⟩

def JournalCall.KeepsLog : JournalCall → Prop
  | addCreated _ _ | takeStatements => False
  | _ => True

theorem Journal.created_of_call {j k : Journal} {c : JournalCall} {a : JournalAnswer} (keeps : c.KeepsLog)
    (called : j.call c = .ok (a, k)) : k.created = j.created := by
  have stays : c ≠ .takeStatements := by
    rintro rfl
    cases keeps
  rcases (indexes_of_call stays called).2.1 with kept | ⟨v, e, rfl⟩
  · exact kept
  · cases keeps

namespace Plan

def Action.KeepsLog : Action → Prop
  | .call (.journal c) => c.KeepsLog
  | .call _ => True
  | .replaceJournal _ => False

theorem Logged.acted (c : Config) {actions : List Action} (keeps : ∀ a ∈ actions, a.KeepsLog) :
    ((Plan.ofConfig c).acted actions).Logged := by
  refine (Owned.ofConfig c).acted_keeps (fun _ _ _ _ => True.intro) (fun _ _ => Logged.change)
    (fun p a member alone logged => ?_) fun v => rfl
  have same : (p.act a).journal.created = p.journal.created := by
    have kept := keeps a member
    rcases p.journal_act_cases alone with ⟨j, rfl⟩ | ⟨c, rfl, untouched | ⟨answer, called⟩⟩
    · cases kept
    · rw [untouched]
    · exact Journal.created_of_call kept called
  rw [act_eq_of_onJournal p alone]
  exact logged.congr same (fun _ => rfl) fun _ => rfl

end Plan

namespace Plan

variable {p : Plan} {skipped : SortedSet Variable}

theorem createsNode_iff {v : Variable} {e : Entity} : (p.nodes.get? v).bind NodeIntent.entity? = some e ↔
    ∃ n, p.nodes.get? v = some (.create n) ∧ n.entity = e :=
  SortedMap.bind_get?_eq_some_iff fun n => by cases n <;> simp [NodeIntent.entity?]

theorem createsEdge_iff {v : Variable} {e : Entity} : (p.edges.get? v).bind EdgeIntent.entity? = some e ↔
    ∃ n, p.edges.get? v = some (.create n) ∧ n.entity = some e :=
  SortedMap.bind_get?_eq_some_iff fun x => by cases x <;> simp [EdgeIntent.entity?]

theorem creates?_eq_some_iff (owned : p.Owned) {v : Variable} {e : Entity} : p.creates? v = some e ↔
    (∃ n, p.nodes.get? v = some (.create n) ∧ n.entity = e) ∨
      ∃ n, p.edges.get? v = some (.create n) ∧ n.entity = some e := by
  rw [← createsNode_iff, ← createsEdge_iff, creates?]
  -- a variable does not stand for a node and an edge at once
  cases here : p.edges.get? v with
  | none => simp
  | some x =>
    have absent : p.nodes.get? v = none := get?_nodes_of_absent fun held => by
      cases owned.unique _ _ _ held (holds_edge_self here)
    simp [absent]

theorem no_objects_of_batchable (batchable : p.isBatchable = true) (v : Variable) (e : Entity) :
    (∀ n, p.nodes.get? v ≠ some (.create n)) ∧ ∀ n, p.edges.get? v = some (.create n) → n.entity ≠ some e := by
  refine ⟨fun n found => ?_, fun n found made => ?_⟩
  · obtain ⟨s, same, -⟩ := node_of_batchable batchable found
    cases same
  · rcases (isBatchable_iff.mp batchable).2.2.2.1 v _ found with plain | superseded
    · obtain ⟨_, ⟨⟩, none, -⟩ := isPlainCreation_iff.mp plain
      rw [none] at made
      cases made
    · cases superseded

theorem reported_iff_drawn (owned : p.Owned) (skips : p.skipped = .ok skipped) {v : Variable} {e : Entity} :
    (p.draft skipped).returned.contains v = true ∧ p.creates? v = some e ↔
      (∃ n, p.nodes.get? v = some (.create n) ∧ n.entity = e) ∨
        ∃ n, p.edges.get? v = some (.create n) ∧ n.entity = some e ∧ p.unresolvedEnd? (.create n) = none := by
  rw [creates?_eq_some_iff owned, contains_returned_draft skips]
  apply Iff.intro
  · intro h
    obtain ⟨returned, node | ⟨n, found, made⟩⟩ := h
    · exact .inl node
    · refine .inr ⟨n, found, made, ?_⟩
      rcases returned with ⟨m, node⟩ | ⟨w, x, drawn, own⟩
      · cases owned.unique _ _ _ (holds_node_self (mem_created.mp node)) (holds_edge_self found)
      · obtain ⟨here, -, resolved⟩ := (mem_drawn skips).mp drawn
        cases owned.unique (.edge w) (.edge v) v ⟨x, here, own⟩ (holds_edge_self found)
        rw [found] at here
        cases here
        exact resolved
  · intro h
    rcases h with ⟨n, found, made⟩ | ⟨n, found, made, resolved⟩
    · exact ⟨.inl ⟨n, mem_created.mpr found⟩, .inl ⟨n, found, made⟩⟩
    · have drawn := (mem_drawn skips).mpr ⟨found, Option.some_ne_none _, resolved⟩
      exact ⟨.inr ⟨v, _, drawn, List.mem_cons_self⟩, .inr ⟨n, found, made⟩⟩

theorem reported_iff (owned : p.Owned) {r : Rendering} (rendered : p.render = .ok r) {v : Variable} {e : Entity} :
    r.returned.contains v = true ∧ p.creates? v = some e ↔
      (∃ n, p.nodes.get? v = some (.create n) ∧ n.entity = e) ∨
        ∃ n, p.edges.get? v = some (.create n) ∧ n.entity = some e ∧ p.unresolvedEnd? (.create n) = none := by
  obtain ⟨skipped, skips, ⟨batchable, rfl⟩ | ⟨-, rfl⟩⟩ := render_cases rendered
  · obtain ⟨noNode, noEdge⟩ := no_objects_of_batchable batchable v e
    rw [creates?_eq_some_iff owned]
    apply Iff.intro
    · intro h
      obtain ⟨-, ⟨n, found, -⟩ | ⟨n, found, made⟩⟩ := h
      · exact absurd found (noNode n)
      · exact absurd made (noEdge n found)
    · intro h
      rcases h with ⟨n, found, -⟩ | ⟨n, found, made, -⟩
      · exact absurd found (noNode n)
      · exact absurd made (noEdge n found)
  · exact reported_iff_drawn owned skips

/-- The created objects whose ids are reported, each with the variable of its intent. -/
def Owners (p : Plan) (owners : List (Variable × Entity)) : Prop :=
  (owners.Pairwise fun a b => a.1.index < b.1.index) ∧
    ∀ v e, (v, e) ∈ owners ↔ (∃ n, p.nodes.get? v = some (.create n) ∧ n.entity = e) ∨
      ∃ n, p.edges.get? v = some (.create n) ∧ n.entity = some e ∧ p.unresolvedEnd? (.create n) = none

def createdAmong (p : Plan) (returned : SortedSet Variable) : List (Variable × Entity) :=
  returned.toList.filterMap fun v => (p.creates? v).map (v, ·)

theorem mem_createdAmong {returned : SortedSet Variable} {v : Variable} {e : Entity} :
    (v, e) ∈ p.createdAmong returned ↔ returned.contains v = true ∧ p.creates? v = some e := by
  simp only [createdAmong, List.mem_filterMap, Option.map_eq_some_iff, Prod.mk.injEq, SortedSet.mem_toList]
  apply Iff.intro
  · intro h
    obtain ⟨_, returned, _, found, rfl, rfl⟩ := h
    exact ⟨returned, found⟩
  · intro h
    obtain ⟨returned, found⟩ := h
    exact ⟨v, returned, e, found, rfl, rfl⟩

theorem Owned.owners (owned : p.Owned) {r : Rendering} (rendered : p.render = .ok r) :
    p.Owners (p.createdAmong r.returned) := by
  refine ⟨(SortedMap.keys_ascending r.returned).filterMap _ fun v w less a first b second => ?_, fun v e => ?_⟩
  · obtain ⟨_, -, rfl⟩ := Option.map_eq_some_iff.mp first
    obtain ⟨_, -, rfl⟩ := Option.map_eq_some_iff.mp second
    exact Variable.compare_eq_lt_iff.mp less
  · rw [mem_createdAmong, reported_iff owned rendered]

theorem Logged.answered (logged : p.Logged) (returned : SortedSet Variable) (ids : Variable → UInt64) :
    (returned.toList.filterMap fun v => (p.journal.created.get? v).map fun e => (e, ids v)) =
      (p.createdAmong returned).map fun o => (o.2, ids o.1) := by
  rw [createdAmong, List.map_filterMap]
  refine List.filterMap_congr fun v _ => ?_
  rw [logged v, Option.map_map]
  rfl

end Plan

end GraphWrites
