import GraphWrites.Proofs.Plan.Indexes

namespace GraphWrites

theorem SortedMap.contains_insertIfNew_self {α β : Type*} [Ord α] [Std.TransOrd α] [Std.LawfulEqOrd α] [DecidableEq α]
    (m : SortedMap α β) (k : α) (v : β) : (m.insertIfNew k v).contains k = true := by
  unfold insertIfNew
  split
  · assumption
  · simp [contains_insert]

theorem Journal.get?_visit_of_ne {e f : Entity} (differ : f ≠ e) (j : Journal) (v : Variable) :
    (j.visit e v).visited.get? f = j.visited.get? f := SortedMap.get?_insert_of_ne _ _ differ

namespace Plan

theorem visitedNode?_eq_some_iff {p : Plan} {e : Entity} {v : Variable} :
    p.visitedNode? e = some v ↔ p.journal.visited.get? e = some v ∧ p.nodes.contains v = true := by
  rw [visitedNode?, Option.filter_eq_some_iff]

theorem visitedEdge?_eq_some_iff {p : Plan} {e : Entity} {v : Variable} :
    p.visitedEdge? e = some v ↔ p.journal.visited.get? e = some v ∧ p.edges.contains v = true := by
  rw [visitedEdge?, Option.filter_eq_some_iff]

theorem not_owned_of_node {p : Plan} {v w : Variable} {vs : List Variable}
    (own : ∀ a, ∀ w ∈ vs, p.Holds a w → a = .edge v) (known : p.nodes.contains w = true) : w ∉ vs := by
  intro member
  cases own (.node w) w member ⟨rfl, known⟩

theorem not_owned_of_edge {p : Plan} {v w : Variable} {vs : List Variable}
    (own : ∀ a, ∀ w ∈ vs, p.Holds a w → a = .edge v) (known : p.edges.contains w = true) (other : w ≠ v) : w ∉ vs := by
  intro member
  obtain ⟨x, found⟩ := SortedMap.contains_iff.mp known
  exact other (Place.edge.inj (own _ w member (holds_edge_self found)))

/-- What is created for an object stands where the object was visited. -/
structure Visits (named : Subject → Prop) (p : Plan) : Prop where
  node : ∀ v e, (p.nodes.get? v).bind NodeIntent.entity? = some e → named (.node e) ∧ p.journal.visited.get? e = some v
  edge : ∀ v e, (p.edges.get? v).bind EdgeIntent.entity? = some e → named (.edge e) ∧ p.journal.visited.get? e = some v

namespace Visits

variable {named : Subject → Prop} {p q : Plan}

theorem congr (visits : p.Visits named) (visited : q.journal.visited = p.journal.visited)
    (nodes : ∀ v, (q.nodes.get? v).bind NodeIntent.entity? = (p.nodes.get? v).bind NodeIntent.entity?)
    (edges : ∀ v, (q.edges.get? v).bind EdgeIntent.entity? = (p.edges.get? v).bind EdgeIntent.entity?) :
    q.Visits named := by
  refine ⟨fun v e made => ?_, fun v e made => ?_⟩
  · rw [nodes] at made
    rw [visited]
    exact visits.node v e made
  · rw [edges] at made
    rw [visited]
    exact visits.edge v e made

theorem creates_no_node (visits : p.Visits named) {e : Entity} (unknown : p.visitedNode? e = none) (v : Variable) :
    (p.nodes.get? v).bind NodeIntent.entity? ≠ some e := by
  intro made
  obtain ⟨n, found, -⟩ := Option.bind_eq_some_iff.mp made
  have known := visitedNode?_eq_some_iff.mpr ⟨(visits.node v e made).2, SortedMap.contains_iff.mpr ⟨n, found⟩⟩
  rw [unknown] at known
  cases known

theorem creates_no_edge (visits : p.Visits named) {e : Entity} (unknown : p.visitedEdge? e = none) (v : Variable) :
    (p.edges.get? v).bind EdgeIntent.entity? ≠ some e := by
  intro made
  obtain ⟨x, found, -⟩ := Option.bind_eq_some_iff.mp made
  have known := visitedEdge?_eq_some_iff.mpr ⟨(visits.edge v e made).2, SortedMap.contains_iff.mpr ⟨x, found⟩⟩
  rw [unknown] at known
  cases known

theorem visit (visits : p.Visits named) {e : Entity} (nodes : ∀ v, (p.nodes.get? v).bind NodeIntent.entity? ≠ some e)
    (edges : ∀ v, (p.edges.get? v).bind EdgeIntent.entity? ≠ some e) (v : Variable) :
    ({ p with journal := p.journal.visit e v } : Plan).Visits named := by
  refine ⟨fun w f made => ?_, fun w f made => ?_⟩
  · have differ : f ≠ e := fun same => nodes w (same ▸ made)
    rw [Journal.get?_visit_of_ne differ]
    exact visits.node w f made
  · have differ : f ≠ e := fun same => edges w (same ▸ made)
    rw [Journal.get?_visit_of_ne differ]
    exact visits.edge w f made

theorem insertNode (visits : p.Visits named) {v : Variable} {n : NodeIntent}
    (visited : q.journal.visited = p.journal.visited) (nodes : q.nodes = p.nodes.insert v n) (edges : q.edges = p.edges)
    (made : ∀ e, n.entity? = some e → named (.node e) ∧ q.journal.visited.get? e = some v) : q.Visits named := by
  refine ⟨fun w e found => ?_, fun w e found => ?_⟩
  · rw [nodes, SortedMap.get?_insert] at found
    split at found
    · rename_i here
      exact here ▸ made e found
    · rw [visited]
      exact visits.node w e found
  · rw [edges] at found
    rw [visited]
    exact visits.edge w e found

theorem insertEdge (visits : p.Visits named) {v : Variable} {x : EdgeIntent}
    (visited : q.journal.visited = p.journal.visited) (nodes : q.nodes = p.nodes) (edges : q.edges = p.edges.insert v x)
    (made : ∀ e, x.entity? = some e → named (.edge e) ∧ q.journal.visited.get? e = some v) : q.Visits named := by
  refine ⟨fun w e found => ?_, fun w e found => ?_⟩
  · rw [nodes] at found
    rw [visited]
    exact visits.node w e found
  · rw [edges, SortedMap.get?_insert] at found
    split at found
    · rename_i here
      exact here ▸ made e found
    · rw [visited]
      exact visits.edge w e found

theorem release (visits : p.Visits named) {v : Variable} {x : EdgeIntent}
    (own : ∀ a, ∀ w ∈ x.owned v, p.Holds a w → a = .edge v) (nodes : q.nodes = p.nodes) (edges : q.edges = p.edges.erase v)
    (journal : q.journal = (x.owned v).foldl Journal.forgetEdge p.journal) : q.Visits named := by
  refine ⟨fun w e made => ?_, fun w e made => ?_⟩
  · rw [nodes] at made
    obtain ⟨n, found, -⟩ := Option.bind_eq_some_iff.mp made
    have kept := not_owned_of_node own (SortedMap.contains_iff.mpr ⟨n, found⟩)
    rw [journal, Journal.get?_visited_foldl_forgetEdge]
    exact ⟨(visits.node w e made).1, (visits.node w e made).2, kept⟩
  · rw [edges, SortedMap.get?_erase] at made
    split at made
    · cases made
    · rename_i other
      obtain ⟨y, found, -⟩ := Option.bind_eq_some_iff.mp made
      have kept := not_owned_of_edge own (SortedMap.contains_iff.mpr ⟨y, found⟩) other
      rw [journal, Journal.get?_visited_foldl_forgetEdge]
      exact ⟨(visits.edge w e made).1, (visits.edge w e made).2, kept⟩

theorem unmap (visits : p.Visits named) {v : Variable} (own : ∀ a, p.Holds a v → a = .node v)
    (nodes : q.nodes = p.nodes.erase v) (edges : q.edges = p.edges) (journal : q.journal = p.journal.forgetVisits v) :
    q.Visits named := by
  refine ⟨fun w e made => ?_, fun w e made => ?_⟩
  · rw [nodes, SortedMap.get?_erase] at made
    split at made
    · cases made
    · rename_i other
      rw [journal, Journal.get?_visited_forgetVisits]
      exact ⟨(visits.node w e made).1, (visits.node w e made).2, other⟩
  · rw [edges] at made
    obtain ⟨x, found, -⟩ := Option.bind_eq_some_iff.mp made
    have other : w ≠ v := by
      rintro rfl
      cases own _ (holds_edge_self found)
    rw [journal, Journal.get?_visited_forgetVisits]
    exact ⟨(visits.edge w e made).1, (visits.edge w e made).2, other⟩

theorem change (apart : ∀ e, named (.node e) → ¬named (.edge e)) (changed : Change named p q) (visits : p.Visits named) :
    q.Visits named := by
  have visitNode : ∀ e v, named (.node e) → p.visitedNode? e = none →
      ({ p with journal := p.journal.visit e v } : Plan).Visits named := fun e v name unknown =>
    visits.visit (visits.creates_no_node unknown) (fun w made => apart e name (visits.edge w e made).1) v
  cases changed with
  | @createNode v free e supply name unknown =>
    refine (visitNode e v name unknown).insertNode rfl rfl rfl fun f made => ?_
    cases made
    exact ⟨name, SortedMap.get?_insert_self _ _ _⟩
  | @storeNode v free e n supply name unknown =>
    refine (visitNode e v name unknown).insertNode rfl rfl rfl fun f made => ?_
    cases made
  | revisitNode e v name unknown => exact visitNode e v name unknown
  | editNode v edits =>
    exact visits.congr rfl (SortedMap.bind_get?_modify (fun n => n.entity?_editAll edits) p.nodes v) fun _ => rfl
  | newEdge => exact visits.insertEdge rfl rfl rfl nofun
  | linkEdge => exact visits.insertEdge rfl rfl rfl nofun
  | @objectEdge v free e type supply name unknown =>
    have visited := visits.visit (fun w made => apart e (visits.node w e made).1 name) (visits.creates_no_edge unknown) v
    refine visited.insertEdge rfl rfl rfl fun f made => ?_
    cases made
    exact ⟨name, SortedMap.get?_insert_self _ _ _⟩
  | pairEdge => exact visits.insertEdge rfl rfl rfl nofun
  | patchEdge => exact visits.insertEdge rfl rfl rfl nofun
  | deleteEdge => exact visits.insertEdge rfl rfl rfl nofun
  | editEdge v edits =>
    exact visits.congr rfl (fun _ => rfl) (SortedMap.bind_get?_modify (fun e => e.entity?_editAll edits) p.edges v)
  | release found own => exact visits.release own rfl rfl rfl
  | unmap found apart own => exact visits.unmap own rfl rfl rfl
  | compile =>
    refine ⟨fun v e made => ?_, fun v e made => ?_⟩
    · cases made
    · cases made

end Visits

end Plan

def JournalCall.KeepsVisits : JournalCall → Prop
  | visit _ _ | takeStatements => False
  | _ => True

namespace Plan

def Action.KeepsVisits : Action → Prop
  | .call (.journal c) => c.KeepsVisits
  | .call _ => True
  | .replaceJournal _ => False

theorem visited_act (p : Plan) {a : Action} (keeps : a.KeepsVisits) (alone : a.OnJournal) :
    (p.act a).journal.visited = p.journal.visited := by
  rcases p.journal_act_cases alone with ⟨j, rfl⟩ | ⟨c, rfl, untouched | ⟨answer, called⟩⟩
  · cases keeps
  · rw [untouched]
  · have stays : c ≠ .takeStatements := by
      rintro rfl
      cases keeps
    rcases (Journal.indexes_of_call stays called).1 with kept | ⟨e, v, rfl⟩
    · exact kept
    · cases keeps

theorem Visits.acted (c : Config) {actions : List Action} (keeps : ∀ a ∈ actions, a.KeepsVisits) {named : Subject → Prop}
    (apart : ∀ e, named (.node e) → ¬named (.edge e)) (names : ∀ a ∈ actions, ∀ s, a.subject? = some s → named s) :
    ((Plan.ofConfig c).acted actions).Visits named := by
  refine (Owned.ofConfig c).acted_keeps names (fun _ _ => Visits.change apart) (fun p a member alone visits => ?_)
    ⟨fun v e made => ?_, fun v e made => ?_⟩
  · rw [act_eq_of_onJournal p alone]
    exact visits.congr (p.visited_act (keeps a member) alone) (fun _ => rfl) fun _ => rfl
  · cases made
  · cases made

/-- There is one intent for each stored node, each created object and each stored edge. -/
structure Single (p : Plan) : Prop where
  storedNode : ∀ v w s t, p.nodes.get? v = some (.update s) → p.nodes.get? w = some (.update t) → s.node = t.node → v = w
  newNode : ∀ v w m n, p.nodes.get? v = some (.create m) → p.nodes.get? w = some (.create n) → m.entity = n.entity → v = w
  object : ∀ v w m n e, p.edges.get? v = some (.create m) → p.edges.get? w = some (.create n) → m.entity = some e →
    n.entity = some e → v = w
  storedEdge : ∀ v w s t, p.edges.get? v = some (.patch s) → p.edges.get? w = some (.patch t) → s.edge = t.edge → v = w

theorem Visits.single {named : Subject → Prop} {p : Plan} (visits : p.Visits named) (owned : p.Owned)
    (indexed : p.Indexed) : p.Single := by
  refine ⟨fun v w s t left right same => ?_, fun v w m n left right same => ?_, fun v w m n e left right here there => ?_,
    fun v w s t left right same => ?_⟩
  · have one := owned.get?_bound_iff.mpr ⟨s, left, rfl⟩
    have two := owned.get?_bound_iff.mpr ⟨t, right, rfl⟩
    rw [same, two] at one
    exact (Option.some_inj.mp one).symm
  · have one := (visits.node v _ (createsNode_iff.mpr ⟨m, left, rfl⟩)).2
    have two := (visits.node w _ (createsNode_iff.mpr ⟨n, right, rfl⟩)).2
    rw [same, two] at one
    exact (Option.some_inj.mp one).symm
  · have one := (visits.edge v _ (createsEdge_iff.mpr ⟨m, left, here⟩)).2
    have two := (visits.edge w _ (createsEdge_iff.mpr ⟨n, right, there⟩)).2
    rw [two] at one
    exact (Option.some_inj.mp one).symm
  · exact indexed.unique (patchesEdge_iff.mpr ⟨s, left, rfl⟩) (patchesEdge_iff.mpr ⟨t, right, same.symm⟩)

def Has (p : Plan) (v : Variable) : Subject → Prop
  | .node _ => p.nodes.contains v = true
  | .edge _ | .stored _ => p.edges.contains v = true

/-- The variable that the plan keeps for a subject. -/
def noted? (p : Plan) : Subject → Option Variable
  | .node e | .edge e => p.journal.visited.get? e
  | .stored e => p.storedEdges.get? e

/-- Every request for the subject answers the variable and changes nothing. -/
def Answers (p : Plan) (v : Variable) (s : Subject) : Prop :=
  (∀ request : NodeRequest, request.subject? = some s → p.requestNode request = (some v, p)) ∧
    ∀ request : EdgeRequest, request.subject? = some s → p.requestEdge request = (some v, p)

variable {p q : Plan} {s : Subject} {v : Variable}

theorem answers_of_noted (noted : p.noted? s = some v) (has : p.Has v s) : p.Answers v s := by
  refine ⟨fun request asked => ?_, fun request asked => ?_⟩
  · cases request with
    | new e =>
      cases asked
      have known := visitedNode?_eq_some_iff.mpr ⟨noted, has⟩
      rw [requestNode, newNode, known]
      rfl
    | stored e n =>
      cases asked
      have known := visitedNode?_eq_some_iff.mpr ⟨noted, has⟩
      rw [requestNode, storedNode, known]
      rfl
    | under w => cases asked
  · cases request with
    | object e type =>
      cases asked
      have known := visitedEdge?_eq_some_iff.mpr ⟨noted, has⟩
      rw [requestEdge, edgeObject, known]
      rfl
    | stored e type =>
      cases asked
      have known : (p.storedEdges.get? e).filter p.edges.contains = some v := Option.filter_eq_some_iff.mpr ⟨noted, has⟩
      rw [requestEdge, storedEdge, known]
      rfl
    | _ => cases asked

theorem noted_of_requestNode {request : NodeRequest} (asked : request.subject? = some s)
    (answered : p.requestNode request = (some v, q)) : q.noted? s = some v ∧ q.Has v s := by
  cases request with
  | new e =>
    cases asked
    change (p.newNode e).map some id = _ at answered
    unfold newNode at answered
    split at answered
    · rename_i known
      cases answered
      exact visitedNode?_eq_some_iff.mp known
    · cases answered
      exact ⟨SortedMap.get?_insert_self _ _ _, SortedMap.contains_insertIfNew_self _ _ _⟩
  | stored e n =>
    cases asked
    change (p.storedNode e n).map some id = _ at answered
    unfold storedNode at answered
    split at answered
    · rename_i known
      cases answered
      exact visitedNode?_eq_some_iff.mp known
    · cases answered
      exact ⟨SortedMap.get?_insert_self _ _ _, SortedMap.contains_insertIfNew_self _ _ _⟩
  | under w => cases asked

theorem noted_of_requestEdge {request : EdgeRequest} (asked : request.subject? = some s)
    (answered : p.requestEdge request = (some v, q)) : q.noted? s = some v ∧ q.Has v s := by
  cases request with
  | object e type =>
    cases asked
    change (p.edgeObject e type).map some id = _ at answered
    unfold edgeObject at answered
    split at answered
    · rename_i known
      cases answered
      exact visitedEdge?_eq_some_iff.mp known
    · cases answered
      exact ⟨SortedMap.get?_insert_self _ _ _, SortedMap.contains_insertIfNew_self _ _ _⟩
  | stored e type =>
    cases asked
    change (p.storedEdge e type).map some id = _ at answered
    unfold storedEdge at answered
    split at answered
    · rename_i known
      cases answered
      exact Option.filter_eq_some_iff.mp known
    · cases answered
      exact ⟨SortedMap.get?_insert_self _ _ _, SortedMap.contains_insertIfNew_self _ _ _⟩
  | _ => cases asked

theorem Edited.has_iff (edited : p.Edited q) : q.Has v s ↔ p.Has v s := by
  cases edited with
  | untouched => rfl
  | node w edits =>
    cases s with
    | node e => rw [Has, editNode, SortedMap.contains_modify, Has]
    | _ => rfl
  | edge w edits =>
    cases s with
    | node e => rfl
    | _ => rw [Has, editEdge, SortedMap.contains_modify, Has]

theorem Edited.noted?_eq (edited : p.Edited q) : q.noted? s = p.noted? s := by
  cases edited <;> cases s <;> rfl

theorem noted_of_call {request : PlanCall} (asked : request.subject? = some s)
    (answered : p.call request = .ok (.variable (some v), q)) : q.noted? s = some v ∧ q.Has v s := by
  have edited : ∀ {r : Plan}, r.Edited q → r.noted? s = some v ∧ r.Has v s → q.noted? s = some v ∧ q.Has v s :=
    fun edited h => ⟨edited.noted?_eq.trans h.1, edited.has_iff.mpr h.2⟩
  cases request with
  | node request edits =>
    rw [call_node] at answered
    rcases made : p.requestNode request with ⟨_ | w, r⟩ <;> rw [made] at answered <;> cases answered
    exact edited (.node v edits) (noted_of_requestNode asked made)
  | edge request edits =>
    rw [call_edge] at answered
    rcases made : p.requestEdge request with ⟨_ | w, r⟩ <;> rw [made] at answered <;> cases answered
    exact edited (.edge v edits) (noted_of_requestEdge asked made)
  | _ => cases asked

section Kept

variable {named : Subject → Prop}

theorem noted?_congr (visited : q.journal.visited = p.journal.visited) (stored : q.storedEdges = p.storedEdges) :
    q.noted? s = p.noted? s := by
  cases s with
  | stored r => rw [noted?, stored, noted?]
  | _ => rw [noted?, visited, noted?]

theorem noted_visit (noted : p.noted? s = some v) {e : Entity} (node : s ≠ .node e) (edge : s ≠ .edge e) (w : Variable)
    (visited : q.journal.visited = (p.journal.visit e w).visited) (stored : q.storedEdges = p.storedEdges) :
    q.noted? s = some v := by
  cases s with
  | stored r => rw [noted?, stored, ← noted, noted?]
  | node f =>
    have differ : f ≠ e := fun same => node (same ▸ rfl)
    rw [noted?, visited, Journal.get?_visit_of_ne differ, ← noted, noted?]
  | edge f =>
    have differ : f ≠ e := fun same => edge (same ▸ rfl)
    rw [noted?, visited, Journal.get?_visit_of_ne differ, ← noted, noted?]

theorem noted_release (indexed : p.Indexed) (noted : p.noted? s = some v) (has : q.Has v s) {w : Variable}
    {x : EdgeIntent} (found : p.edges.get? w = some x) (own : ∀ a, ∀ u ∈ x.owned w, p.Holds a u → a = .edge w)
    (nodes : q.nodes = p.nodes) (edges : q.edges = p.edges.erase w)
    (journal : q.journal = (x.owned w).foldl Journal.forgetEdge p.journal)
    (stored : q.storedEdges = x.unindexed p.storedEdges) : q.noted? s = some v := by
  have edgeKept : q.edges.contains v = true → v ≠ w ∧ p.edges.contains v = true := by
    intro kept
    rw [edges, SortedMap.contains_erase, Bool.and_eq_true, decide_eq_true_eq] at kept
    exact kept
  cases s with
  | node e =>
    rw [Has, nodes] at has
    rw [noted?, journal, Journal.get?_visited_foldl_forgetEdge]
    exact ⟨noted, not_owned_of_node own has⟩
  | edge e =>
    obtain ⟨other, known⟩ := edgeKept has
    rw [noted?, journal, Journal.get?_visited_foldl_forgetEdge]
    exact ⟨noted, not_owned_of_edge own known other⟩
  | stored r =>
    rw [noted?, stored]
    cases x with
    | patch t =>
      have differ : r ≠ t.edge := by
        rintro rfl
        have same := (indexed t.edge w).mpr (patchesEdge_iff.mpr ⟨t, found, rfl⟩)
        rw [noted?] at noted
        rw [noted] at same
        exact (edgeKept has).1 (Option.some_inj.mp same)
      rw [EdgeIntent.unindexed, SortedMap.get?_erase_of_ne _ differ]
      exact noted
    | _ => exact noted

theorem noted_change (apart : ∀ e, named (.node e) → ¬named (.edge e)) (name : named s) (indexed : p.Indexed)
    (changed : Change named p q) (noted : p.noted? s = some v) (had : p.Has v s) (has : q.Has v s) :
    q.noted? s = some v := by
  -- an object that is visited now had no intent, so that it is not the subject
  have otherNode : ∀ {e}, named (.node e) → p.visitedNode? e = none → s ≠ .node e ∧ s ≠ .edge e := by
    intro e asked unknown
    apply And.intro
    · rintro rfl
      rw [visitedNode?_eq_some_iff.mpr ⟨noted, had⟩] at unknown
      cases unknown
    · rintro rfl
      exact apart e asked name
  have otherEdge : ∀ {e}, named (.edge e) → p.visitedEdge? e = none → s ≠ .node e ∧ s ≠ .edge e := by
    intro e asked unknown
    apply And.intro
    · rintro rfl
      exact apart e name asked
    · rintro rfl
      rw [visitedEdge?_eq_some_iff.mpr ⟨noted, had⟩] at unknown
      cases unknown
  have same : q.journal.visited = p.journal.visited → q.storedEdges = p.storedEdges → q.noted? s = some v :=
    fun visited stored => (noted?_congr visited stored).trans noted
  cases changed with
  | @createNode w _ e _ asked unknown =>
    exact noted_visit noted (otherNode asked unknown).1 (otherNode asked unknown).2 w rfl rfl
  | @storeNode w _ e _ _ asked unknown =>
    exact noted_visit noted (otherNode asked unknown).1 (otherNode asked unknown).2 w rfl rfl
  | revisitNode e w asked unknown =>
    exact noted_visit noted (otherNode asked unknown).1 (otherNode asked unknown).2 w rfl rfl
  | @objectEdge w _ e _ _ asked unknown =>
    exact noted_visit noted (otherEdge asked unknown).1 (otherEdge asked unknown).2 w rfl rfl
  | editNode | newEdge | linkEdge | pairEdge | deleteEdge | editEdge => exact same rfl rfl
  | @patchEdge w _ e unknown =>
    cases s with
    | stored r =>
      have differ : r ≠ e := by
        rintro rfl
        have known : (p.storedEdges.get? r).filter p.edges.contains = some v := Option.filter_eq_some_iff.mpr ⟨noted, had⟩
        rw [unknown] at known
        cases known
      rw [noted?, SortedMap.get?_insert_of_ne _ _ differ]
      exact noted
    | _ => exact noted
  | release found own => exact noted_release indexed noted has found own rfl rfl rfl rfl
  | @unmap w n found _ own =>
    cases s with
    | stored r => exact noted
    | node e =>
      rw [Has, SortedMap.contains_erase, Bool.and_eq_true, decide_eq_true_eq] at has
      rw [noted?, Journal.get?_visited_forgetVisits]
      exact ⟨noted, has.1⟩
    | edge e =>
      obtain ⟨x, here⟩ := SortedMap.contains_iff.mp has
      have other : v ≠ w := by
        rintro rfl
        cases own _ (holds_edge_self here)
      rw [noted?, Journal.get?_visited_forgetVisits]
      exact ⟨noted, other⟩
  | compile => cases s <;> cases has

theorem noted_act (apart : ∀ e, named (.node e) → ¬named (.edge e)) (name : named s) (owned : p.Owned)
    (indexed : p.Indexed) {a : Action} (keeps : a.KeepsVisits) (names : ∀ t, a.subject? = some t → named t)
    (noted : p.noted? s = some v) (had : p.Has v s) (has : (p.act a).Has v s) : (p.act a).noted? s = some v := by
  by_cases alone : a.OnJournal
  · have stored : (p.act a).storedEdges = p.storedEdges := by rw [act_eq_of_onJournal p alone]
    rw [noted?_congr (p.visited_act keeps alone) stored, noted]
  · obtain ⟨q, changes, edited⟩ := owned.change_act alone names
    rw [edited.noted?_eq]
    cases changes with
    | refl => exact noted
    | single changed => exact noted_change apart name indexed changed noted had (edited.has_iff.mp has)

theorem noted_acted (apart : ∀ e, named (.node e) → ¬named (.edge e)) (name : named s) {actions : List Action}
    (keeps : ∀ a ∈ actions, a.KeepsVisits) (names : ∀ a ∈ actions, ∀ t, a.subject? = some t → named t) (owned : p.Owned)
    (indexed : p.Indexed) (noted : p.noted? s = some v) (stands : ∀ part, part <+: actions → (p.acted part).Has v s) :
    (p.acted actions).noted? s = some v := by
  induction actions generalizing p with
  | nil => exact noted
  | cons a actions ih =>
    have next : (p.act a).noted? s = some v :=
      noted_act apart name owned indexed (keeps a List.mem_cons_self) (names a List.mem_cons_self) noted
        (stands [] List.nil_prefix) (stands [a] (List.cons_prefix_cons.mpr ⟨rfl, List.nil_prefix⟩))
    refine ih (fun b member => keeps b (List.mem_cons_of_mem _ member))
      (fun b member => names b (List.mem_cons_of_mem _ member)) (owned.act a) (indexed.run owned [a]) next ?_
    intro part before
    exact stands (a :: part) (List.cons_prefix_cons.mpr ⟨rfl, before⟩)

end Kept

def Asks (actions : List Action) (s : Subject) : Prop := ∃ a ∈ actions, a.subject? = some s

/-- In a run that saves no object both as a node and as an edge there is one intent for each object. As long as the
intent that a request answered stands, every further request for the same object or stored edge, with whatever else
it says, answers the same variable and leaves the plan as it is. -/
theorem one_intent_for_each (c : Config) {actions : List Action} (keeps : ∀ a ∈ actions, a.KeepsVisits)
    (apart : ∀ e, Asks actions (.node e) → ¬Asks actions (.edge e)) :
    ((ofConfig c).acted actions).Single ∧
      ∀ earlier request later s v q, actions = earlier ++ .call request :: later → request.subject? = some s →
        ((ofConfig c).acted earlier).call request = .ok (.variable (some v), q) →
        (∀ part, part <+: later → (q.acted part).Has v s) → (q.acted later).Answers v s := by
  have names : ∀ a ∈ actions, ∀ s, a.subject? = some s → Asks actions s := fun a member s asked => ⟨a, member, asked⟩
  have owned : ((ofConfig c).acted actions).Owned := (Owned.ofConfig c).acted actions
  refine ⟨(Visits.acted c keeps apart names).single owned (Indexed.acted c actions), ?_⟩
  intro earlier request later s v q split asked answered stands
  have member : ∀ a ∈ Action.call request :: later, a ∈ actions := by
    intro a member
    rw [split]
    exact List.mem_append_right _ member
  have before : ((ofConfig c).acted earlier).Owned := (Owned.ofConfig c).acted earlier
  have indexed : ((ofConfig c).acted earlier).Indexed := Indexed.acted c earlier
  generalize (ofConfig c).acted earlier = p at answered before indexed
  have behind : p.act (.call request) = q := by
    change p.step request = q
    rw [step_eq, answered]
  obtain ⟨noted, -⟩ := noted_of_call asked answered
  have kept : (q.acted later).noted? s = some v := by
    refine noted_acted apart (names _ (member _ List.mem_cons_self) s asked)
      (fun a after => keeps a (member a (List.mem_cons_of_mem _ after)))
      (fun a after => names a (member a (List.mem_cons_of_mem _ after))) ?_ ?_ noted stands
    · exact behind ▸ before.act (.call request)
    · exact behind ▸ indexed.run before [.call request]
  exact answers_of_noted kept (stands later List.prefix_rfl)

def afterStored : List Action :=
  [.call (.node (.stored ⟨3⟩ ⟨30⟩) []), .call (.edge (.connect ⟨1⟩ "T" ⟨2⟩ .outgoing) []),
    .call (.unrelate ⟨"T", ⟨20⟩, ⟨30⟩⟩ none), .call (.unmap ⟨2⟩), .call (.node (.new ⟨4⟩) []),
    .call (.edge (.object ⟨6⟩ "U") []), .call (.node (.stored ⟨5⟩ ⟨20⟩) [])]

def storedBetween : List Action :=
  [.call (.node (.new ⟨1⟩) [])] ++ .call (.node (.stored ⟨2⟩ ⟨20⟩) []) :: afterStored

theorem storedBetween_single : ∃ p : Plan, (ofConfig .default).acted storedBetween = p ∧ p.Single ∧
    p.owned = [⟨3⟩, ⟨0⟩, ⟨1⟩, ⟨2⟩] ∧ p.requestNode (.new ⟨2⟩) = (some ⟨1⟩, p) := by
  have keeps : ∀ a ∈ storedBetween, a.KeepsVisits := by
    intro a member
    simp only [storedBetween, afterStored, List.mem_append, List.mem_cons, List.not_mem_nil, or_false] at member
    rcases member with rfl | rfl | rfl | rfl | rfl | rfl | rfl | rfl | rfl <;> trivial
  have apart : ∀ e, Asks storedBetween (.node e) → ¬Asks storedBetween (.edge e) := by
    intro e node edge
    have object : e = ⟨6⟩ := by
      simpa [Asks, storedBetween, afterStored, Action.subject?, PlanCall.subject?, NodeRequest.subject?,
        EdgeRequest.subject?, eq_comm] using edge
    simp [Asks, storedBetween, afterStored, Action.subject?, PlanCall.subject?, NodeRequest.subject?,
      EdgeRequest.subject?, object] at node
  obtain ⟨single, answers⟩ := one_intent_for_each .default keeps apart
  have stands : ∀ n < 8,
      (((ofConfig .default).acted (storedBetween.take 2)).acted (afterStored.take n)).nodes.contains ⟨1⟩ = true := by decide
  refine ⟨_, rfl, single, by decide, ?_⟩
  refine (answers [.call (.node (.new ⟨1⟩) [])] (.node (.stored ⟨2⟩ ⟨20⟩) []) afterStored (.node ⟨2⟩) ⟨1⟩
    ((ofConfig .default).acted (storedBetween.take 2)) rfl rfl rfl fun part before => ?_).1 (.new ⟨2⟩) rfl
  rw [List.prefix_iff_eq_take.mp before]
  exact stands _ (Nat.lt_succ_of_le before.length_le)

end Plan

end GraphWrites
