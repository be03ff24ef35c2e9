import GraphWrites.Proofs.Plan.Variables
import Mathlib.Logic.Relation

namespace GraphWrites

inductive Subject where
  | node (e : Entity)
  | edge (e : Entity)
  | stored (e : EdgeId)
deriving DecidableEq

def NodeRequest.subject? : NodeRequest → Option Subject
  | new e | stored e _ => some (.node e)
  | under _ => none

def EdgeRequest.subject? : EdgeRequest → Option Subject
  | object e _ => some (.edge e)
  | stored e _ => some (.stored e)
  | new _ | connect _ _ _ _ | pair _ | under _ => none

def PlanCall.subject? : PlanCall → Option Subject
  | node request _ => request.subject?
  | edge request _ => request.subject?
  | _ => none

def EdgeIntent.stored? : EdgeIntent → Option EdgeId
  | patch s => some s.edge
  | create _ | delete _ | pair _ => none

theorem EdgeIntent.stored?_editAll (e : EdgeIntent) (edits : List EdgeEdit) : (e.editAll edits).stored? = e.stored? :=
  editAll_keeps (fun e edit => by cases e <;> cases edit <;> rfl) e edits

def EdgeIntent.unindexed (index : SortedMap EdgeId Variable) : EdgeIntent → SortedMap EdgeId Variable
  | patch s => index.erase s.edge
  | create _ | delete _ | pair _ => index

namespace Plan

open Relation (ReflGen)

def Action.subject? : Action → Option Subject
  | .call c => c.subject?
  | .replaceJournal _ => none

def Free (p : Plan) (v : Variable) : Prop := ∀ a, ¬p.Holds a v

theorem Free.nodes {p : Plan} {v : Variable} (free : p.Free v) : p.nodes.get? v = none := get?_nodes_of_absent (free _)

theorem Free.edges {p : Plan} {v : Variable} (free : p.Free v) : p.edges.get? v = none := get?_edges_of_absent (free _)

/-- One change, for a subject that may be asked for. -/
inductive Change (named : Subject → Prop) (p : Plan) : Plan → Prop where
  | createNode {v : Variable} (free : p.Free v) (e : Entity) (supply : Supply) (name : named (.node e))
      (unknown : p.visitedNode? e = none) : Change named p { p with
      supply
      journal := (p.journal.visit e v).addCreated v e
      nodes := p.nodes.insert v (.new e) }
  | storeNode {v : Variable} (free : p.Free v) (e : Entity) (n : NodeId) (supply : Supply) (name : named (.node e))
      (unknown : p.visitedNode? e = none) : Change named p { p with
      supply
      journal := p.journal.visit e v
      nodes := p.nodes.insert v (.stored n) }
  | revisitNode (e : Entity) (v : Variable) (name : named (.node e)) (unknown : p.visitedNode? e = none)
      (known : p.nodes.contains v = true) : Change named p { p with journal := p.journal.visit e v }
  | editNode (v : Variable) (edits : List NodeEdit) : Change named p (p.editNode v edits)
  | newEdge {v : Variable} (free : p.Free v) (type : String) (supply : Supply) : Change named p { p with
      supply
      edges := p.edges.insert v (.create { type }) }
  | linkEdge {v : Variable} (free : p.Free v) (link : Link) (type : String) (source target : Variable) (d : Direction)
      (supply : Supply) : Change named p { p with
      supply
      journal := p.journal.addLink link v
      edges := p.edges.insert v (.create { type, source := some source, target := some target, direction := d }) }
  | objectEdge {v : Variable} (free : p.Free v) (e : Entity) (type : String) (supply : Supply) (name : named (.edge e))
      (unknown : p.visitedEdge? e = none) : Change named p { p with
      supply
      journal := (p.journal.visit e v).addCreated v e
      edges := p.edges.insert v (.create { type, entity := some e }) }
  | pairEdge {v reverse : Variable} (free : p.Free v) (second : p.Free reverse) (differ : v ≠ reverse) (type : String)
      (supply : Supply) : Change named p { p with
      supply
      edges := p.edges.insert v (.pair { reverse, type }) }
  | patchEdge {v : Variable} (free : p.Free v) {e : EdgeId} (unknown : (p.storedEdges.get? e).filter p.edges.contains = none)
      (type : String) (supply : Supply) (name : named (.stored e)) : Change named p { p with
      supply
      journal := p.journal.visitEdge e
      edges := p.edges.insert v (.patch { type, edge := e })
      storedEdges := p.storedEdges.insert e v }
  | deleteEdge {v : Variable} (free : p.Free v) (d : DeletedEdge) (supply : Supply) : Change named p { p with
      supply
      edges := p.edges.insert v (.delete d) }
  | editEdge (v : Variable) (edits : List EdgeEdit) : Change named p (p.editEdge v edits)
  | release {v : Variable} {e : EdgeIntent} (found : p.edges.get? v = some e)
      (own : ∀ a, ∀ w ∈ e.owned v, p.Holds a w → a = .edge v) : Change named p { p with
      supply := p.supply.releaseAll (e.owned v)
      journal := (e.owned v).foldl Journal.forgetEdge p.journal
      edges := p.edges.erase v
      storedEdges := e.unindexed p.storedEdges }
  | unmap {v : Variable} {n : StoredNode} (found : p.nodes.get? v = some (.update n))
      (apart : (p.edges.values.all fun e => !e.touches v) = true) (own : ∀ a, p.Holds a v → a = .node v) :
      Change named p { p with
      supply := (p.supply.release v).2
      journal := p.journal.forgetVisits v
      nodes := p.nodes.erase v }
  | compile : Change named p { ofConfig p.config with supply := p.supply.releaseAll p.owned }

inductive Edited (p : Plan) : Plan → Prop where
  | untouched : Edited p p
  | node (v : Variable) (edits : List NodeEdit) : Edited p (p.editNode v edits)
  | edge (v : Variable) (edits : List EdgeEdit) : Edited p (p.editEdge v edits)

namespace Owned

variable {p : Plan} {named : Subject → Prop}

theorem free_take (owned : p.Owned) : p.Free p.supply.take.1 := owned.absent_of_free p.supply.isOutstanding_take_self

theorem change_newNode (owned : p.Owned) {e : Entity} (name : named (.node e)) :
    ReflGen (Change named) p (p.newNode e).2 := by
  have free := owned.free_take
  have inserted := SortedMap.insertIfNew_of_get?_eq_none (NodeIntent.new e) free.nodes
  unfold Plan.newNode
  split
  · exact .refl
  · rename_i unknown
    refine .single ?_
    have change := Change.createNode free e p.supply.take.2 name unknown
    rw [← inserted] at change
    exact change

theorem change_storedNode (owned : p.Owned) {e : Entity} (name : named (.node e)) (n : NodeId) :
    ReflGen (Change named) p (p.storedNode e n).2 := by
  unfold Plan.storedNode
  split
  · exact .refl
  · rename_i unknown
    refine .single ?_
    dsimp only
    unfold Supply.takeFor
    split
    · -- the node stands under its variable already
      rename_i v found
      obtain ⟨m, here, -⟩ := Option.map_eq_some_iff.mp ((owned.bound n v).mp found)
      have known : p.nodes.contains v = true := SortedMap.contains_iff.mpr ⟨m, here⟩
      have same := SortedMap.insertIfNew_of_contains (NodeIntent.stored n) known
      have change := Change.revisitNode e v name unknown known
      rw [addNode, same]
      exact change
    · have free := owned.free_take
      have inserted := SortedMap.insertIfNew_of_get?_eq_none (NodeIntent.stored n) free.nodes
      have change := Change.storeNode free e n { p.supply.take.2 with bound := p.supply.take.2.bound.insert n p.supply.take.1 }
        name unknown
      rw [← inserted] at change
      exact change

theorem change_requestNode (owned : p.Owned) {request : NodeRequest} (names : ∀ s, request.subject? = some s → named s) :
    ReflGen (Change named) p (p.requestNode request).2 := by
  cases request with
  | new e => exact owned.change_newNode (names _ rfl)
  | stored e n => exact owned.change_storedNode (names _ rfl) n
  | under v => exact .refl

theorem change_requestEdge (owned : p.Owned) {request : EdgeRequest} (names : ∀ s, request.subject? = some s → named s) :
    ReflGen (Change named) p (p.requestEdge request).2 := by
  have free := owned.free_take
  have inserted : ∀ e, p.edges.insertIfNew p.supply.take.1 e = p.edges.insert p.supply.take.1 e := fun e =>
    SortedMap.insertIfNew_of_get?_eq_none e free.edges
  cases request with
  | new type =>
    have change : Change named p _ := .newEdge free type p.supply.take.2
    rw [← inserted] at change
    exact .single change
  | connect source type target d =>
    change ReflGen (Change named) p (p.connect source type target d).2
    unfold Plan.connect
    dsimp only
    split
    · exact .refl
    · have change : Change named p _ := .linkEdge free ⟨(d.orient source target).1, type, (d.orient source target).2⟩
        type source target d p.supply.take.2
      rw [← inserted] at change
      exact .single change
  | object e type =>
    change ReflGen (Change named) p (p.edgeObject e type).2
    unfold Plan.edgeObject
    split
    · exact .refl
    · rename_i unknown
      have change := Change.objectEdge free e type p.supply.take.2 (names _ rfl) unknown
      rw [← inserted] at change
      exact .single change
  | pair type =>
    have taken := Supply.takes_two owned.sound
    have second := owned.absent_of_free (taken.free _ (List.mem_cons_of_mem _ List.mem_cons_self))
    have differ := List.ne_of_not_mem_cons (List.nodup_cons.mp taken.distinct).1
    have change : Change named p _ := .pairEdge free second differ type p.supply.take.2.take.2
    rw [← inserted] at change
    exact .single change
  | stored e type =>
    change ReflGen (Change named) p (p.storedEdge e type).2
    unfold Plan.storedEdge
    split
    · exact .refl
    · rename_i unknown
      have change := Change.patchEdge free unknown type p.supply.take.2 (names _ rfl)
      rw [← inserted] at change
      exact .single change
  | under v => exact .refl

theorem change_release (owned : p.Owned) (v : Variable) : ReflGen (Change named) p (p.release v).2 := by
  unfold Plan.release
  split
  · exact .refl
  · rename_i e found
    have change : Change named p _ := .release found fun a w member held =>
      owned.unique a (.edge v) w held ⟨e, found, member⟩
    refine .single ?_
    cases e <;> exact change

theorem change_unmap (owned : p.Owned) (v : Variable) : ReflGen (Change named) p (p.unmap v).2 := by
  rcases p.unmap_cases v with kept | ⟨n, found, apart, unmapped⟩
  · rw [kept]
  · rw [unmapped]
    exact .single (.unmap found apart fun a held => owned.unique a (.node v) v held (holds_node_self found))

theorem change_unrelate (owned : p.Owned) (t : Triple) (e : Option EdgeId) :
    ReflGen (Change named) p (p.unrelate t e).2 := by
  unfold Plan.unrelate
  split
  · exact owned.change_release _
  · exact .single (.deleteEdge owned.free_take ⟨t, e⟩ p.supply.take.2)

/-- Apart from calls on the journal, every call comes to one change at most, and then to its edits. -/
theorem change_step (owned : p.Owned) {c : PlanCall} (plan : ∀ j, c ≠ .journal j)
    (names : ∀ s, c.subject? = some s → named s) : ∃ q, ReflGen (Change named) p q ∧ q.Edited (p.step c) := by
  cases c with
  | node request edits =>
    have asked : ReflGen (Change named) p (p.requestNode request).2 := owned.change_requestNode names
    refine ⟨_, asked, ?_⟩
    rw [step_node]
    rcases p.requestNode request with ⟨_ | v, q⟩
    · exact .untouched
    · exact .node v edits
  | edge request edits =>
    have asked : ReflGen (Change named) p (p.requestEdge request).2 := owned.change_requestEdge names
    refine ⟨_, asked, ?_⟩
    rw [step_edge]
    rcases p.requestEdge request with ⟨_ | v, q⟩
    · exact .untouched
    · exact .edge v edits
  | unrelate t e => exact ⟨_, owned.change_unrelate t e, .untouched⟩
  | release v => exact ⟨_, owned.change_release v, .untouched⟩
  | unmap v => exact ⟨_, owned.change_unmap v, .untouched⟩
  | statements =>
    rw [step_statements]
    exact ⟨p, .refl, .untouched⟩
  | compile =>
    rw [step_compile]
    cases compiled : p.compile with
    | error failure => exact ⟨p, .refl, .untouched⟩
    | ok answer =>
      obtain ⟨-, -, -, -, -, empty⟩ := compile_cases compiled
      dsimp only
      rw [empty]
      exact ⟨_, .single .compile, .untouched⟩
  | journal j => exact absurd rfl (plan j)
  | nodeUnder v => exact ⟨p, .refl, .untouched⟩
  | edgeUnder v => exact ⟨p, .refl, .untouched⟩
  | touches v node => exact ⟨p, .refl, .untouched⟩
  | config => exact ⟨p, .refl, .untouched⟩

end Owned

theorem Edited.change {p q : Plan} {named : Subject → Prop} (edited : p.Edited q) : ReflGen (Change named) p q := by
  cases edited with
  | untouched => exact .refl
  | node v edits => exact .single (.editNode v edits)
  | edge v edits => exact .single (.editEdge v edits)

def Action.OnJournal : Action → Prop
  | .call (.journal _) | .replaceJournal _ => True
  | .call _ => False

theorem act_eq_of_onJournal (p : Plan) {a : Action} (alone : a.OnJournal) :
    p.act a = { p with journal := (p.act a).journal } := by
  cases a with
  | replaceJournal j => rfl
  | call c =>
    cases c with
    | journal c => exact p.step_journal c
    | _ => cases alone

theorem journal_act_cases (p : Plan) {a : Action} (alone : a.OnJournal) :
    (∃ j, a = .replaceJournal j) ∨ ∃ c, a = .call (.journal c) ∧
      ((p.act a).journal = p.journal ∨ ∃ answer, p.journal.call c = .ok (answer, (p.act a).journal)) := by
  cases a with
  | replaceJournal j => exact .inl ⟨j, rfl⟩
  | call c =>
    cases c with
    | journal c =>
      refine .inr ⟨c, rfl, ?_⟩
      change (p.step (.journal c)).journal = _ ∨ ∃ answer, _ = Except.ok (answer, (p.step (.journal c)).journal)
      rw [step_eq, call_journal]
      cases p.journal.call c with
      | error failure => exact .inl rfl
      | ok answer => exact .inr ⟨answer.1, rfl⟩
    | _ => cases alone

theorem Owned.change_act {p : Plan} (owned : p.Owned) {named : Subject → Prop} {a : Action} (plan : ¬a.OnJournal)
    (names : ∀ s, a.subject? = some s → named s) : ∃ q, ReflGen (Change named) p q ∧ q.Edited (p.act a) := by
  cases a with
  | replaceJournal j => exact absurd True.intro plan
  | call c =>
    refine owned.change_step (fun j same => plan ?_) names
    rw [same]
    exact True.intro

/-- What every change keeps, and every action of the run that concerns the journal alone, the run keeps. -/
theorem Owned.acted_keeps {kept : Plan → Prop} {p : Plan} (owned : p.Owned) {named : Subject → Prop}
    {actions : List Action} (names : ∀ a ∈ actions, ∀ s, a.subject? = some s → named s)
    (change : ∀ p q, Change named p q → kept p → kept q)
    (journal : ∀ p, ∀ a ∈ actions, a.OnJournal → kept p → kept (p.act a)) (start : kept p) : kept (p.acted actions) := by
  have changed : ∀ {p q}, ReflGen (Change named) p q → kept p → kept q := by
    intro p q changes start
    cases changes with
    | refl => exact start
    | single once => exact change p q once start
  induction actions generalizing p with
  | nil => exact start
  | cons a actions ih =>
    refine ih (owned.act a) (fun b member => names b (List.mem_cons_of_mem _ member))
      (fun q b member => journal q b (List.mem_cons_of_mem _ member)) ?_
    by_cases alone : a.OnJournal
    · exact journal p a List.mem_cons_self alone start
    · obtain ⟨q, changes, edited⟩ := owned.change_act alone (names a List.mem_cons_self)
      exact changed edited.change (changed changes start)

/-- The index of stored edges leads to the intent for each of them, so that there is only one. -/
def Indexed (p : Plan) : Prop := ∀ e v, p.storedEdges.get? e = some v ↔ (p.edges.get? v).bind EdgeIntent.stored? = some e

namespace Indexed

variable {p q : Plan}

theorem congr (indexed : p.Indexed) (edges : ∀ v, (q.edges.get? v).bind EdgeIntent.stored? = (p.edges.get? v).bind EdgeIntent.stored?)
    (stored : q.storedEdges = p.storedEdges) : q.Indexed := by
  intro e v
  rw [stored, edges, indexed]

theorem insertPatch (indexed : p.Indexed) {v : Variable} (free : p.Free v) {s : StoredEdge}
    (unknown : (p.storedEdges.get? s.edge).filter p.edges.contains = none)
    (edges : q.edges = p.edges.insert v (.patch s)) (stored : q.storedEdges = p.storedEdges.insert s.edge v) :
    q.Indexed := by
  have unindexed : p.storedEdges.get? s.edge = none := by
    cases found : p.storedEdges.get? s.edge with
    | none => rfl
    | some w =>
      obtain ⟨x, here, -⟩ := Option.bind_eq_some_iff.mp ((indexed s.edge w).mp found)
      have known : p.edges.contains w = true := SortedMap.contains_iff.mpr ⟨x, here⟩
      rw [found, Option.filter_some, if_pos known] at unknown
      cases unknown
  intro f w
  rw [edges, stored, SortedMap.get?_insert, SortedMap.get?_insert]
  by_cases this : f = s.edge <;> by_cases here : w = v
  · simp [this, here, EdgeIntent.stored?]
  · have other : (p.edges.get? w).bind EdgeIntent.stored? ≠ some s.edge := by
      rw [ne_eq, ← indexed, unindexed]
      simp
    have differ : ¬v = w := fun same => here same.symm
    simp [this, here, other, differ]
  · have other : s.edge ≠ f := fun same => this same.symm
    have none : p.storedEdges.get? f ≠ some v := by
      rw [ne_eq, indexed, free.edges]
      simp
    simp [this, here, other, none, EdgeIntent.stored?]
  · rw [if_neg this, if_neg here, indexed]

theorem erase (indexed : p.Indexed) {v : Variable} {x : EdgeIntent} (found : p.edges.get? v = some x)
    (edges : q.edges = p.edges.erase v) (stored : q.storedEdges = x.unindexed p.storedEdges) : q.Indexed := by
  have erased : ∀ w, (q.edges.get? w).bind EdgeIntent.stored? =
      if w = v then none else (p.edges.get? w).bind EdgeIntent.stored? := by
    intro w
    rw [edges, SortedMap.get?_erase]
    split <;> rfl
  intro f w
  rw [erased, stored]
  cases x with
  | patch s =>
    have known : p.storedEdges.get? s.edge = some v := (indexed s.edge v).mpr (by rw [found]; rfl)
    rw [EdgeIntent.unindexed, SortedMap.get?_erase]
    by_cases this : f = s.edge <;> by_cases here : w = v
    · simp [this, here]
    · have other : (p.edges.get? w).bind EdgeIntent.stored? ≠ some s.edge := by
        rw [ne_eq, ← indexed, known, Option.some_inj]
        exact fun same => here same.symm
      simp [this, here, other]
    · have other : p.storedEdges.get? f ≠ some v := by
        rw [ne_eq, indexed, found]
        exact fun same => this (Option.some_inj.mp same).symm
      simp [this, here, other]
    · rw [if_neg this, if_neg here, indexed]
  | _ =>
    rw [EdgeIntent.unindexed, indexed]
    split
    · rename_i here
      rw [here, found]
      rfl
    · rfl

theorem change {named : Subject → Prop} (changed : Change named p q) (indexed : p.Indexed) : q.Indexed := by
  have added : ∀ {v e}, p.Free v → EdgeIntent.stored? e = none →
      ∀ w, ((p.edges.insert v e).get? w).bind EdgeIntent.stored? = (p.edges.get? w).bind EdgeIntent.stored? := by
    intro v e free none w
    rw [SortedMap.get?_insert]
    split
    · rename_i here
      rw [here, free.edges]
      exact none
    · rfl
  cases changed with
  | createNode => exact indexed
  | storeNode => exact indexed
  | revisitNode => exact indexed
  | editNode => exact indexed
  | newEdge free => exact indexed.congr (added free rfl) rfl
  | linkEdge free => exact indexed.congr (added free rfl) rfl
  | objectEdge free => exact indexed.congr (added free rfl) rfl
  | pairEdge free => exact indexed.congr (added free rfl) rfl
  | deleteEdge free => exact indexed.congr (added free rfl) rfl
  | patchEdge free unknown => exact indexed.insertPatch free unknown rfl rfl
  | editEdge v edits =>
    exact indexed.congr (SortedMap.bind_get?_modify (fun e => e.stored?_editAll edits) p.edges v) rfl
  | release found => exact indexed.erase found rfl rfl
  | unmap => exact indexed
  | compile =>
    intro e v
    simp [ofConfig]

theorem run (indexed : p.Indexed) (owned : p.Owned) (actions : List Action) : (p.acted actions).Indexed := by
  refine owned.acted_keeps (fun _ _ _ _ => True.intro) (fun _ _ => change) ?_ indexed
  intro p a _ alone indexed
  rw [act_eq_of_onJournal p alone]
  exact indexed

theorem acted (c : Config) (actions : List Action) : ((Plan.ofConfig c).acted actions).Indexed := by
  have start : (Plan.ofConfig c).Indexed := by
    intro e v
    simp [Plan.ofConfig]
  exact start.run (Owned.ofConfig c) actions

theorem unique (indexed : p.Indexed) {v w : Variable} {e : EdgeId}
    (here : (p.edges.get? v).bind EdgeIntent.stored? = some e)
    (there : (p.edges.get? w).bind EdgeIntent.stored? = some e) : v = w := by
  have one := (indexed e v).mpr here
  rw [(indexed e w).mpr there] at one
  exact (Option.some_inj.mp one).symm

end Indexed

end Plan

end GraphWrites
