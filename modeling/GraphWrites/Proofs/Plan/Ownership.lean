import GraphWrites.Proofs.Plan.Run
import GraphWrites.Proofs.Variable.Supply

namespace GraphWrites

namespace NodeIntent

theorem editAll_keeps {α : Type} {f : NodeIntent → α} (once : ∀ n e, f (edit n e) = f n) (n : NodeIntent)
    (edits : List NodeEdit) : f (n.editAll edits) = f n := by
  unfold editAll
  induction edits generalizing n with
  | nil => rfl
  | cons edit edits ih => rw [List.foldl_cons, ih, once]

theorem node?_editAll (n : NodeIntent) (edits : List NodeEdit) : (n.editAll edits).node? = n.node? :=
  editAll_keeps (fun n edit => by cases n <;> cases edit <;> rfl) n edits

end NodeIntent

namespace EdgeIntent

theorem editAll_keeps {α : Type} {f : EdgeIntent → α} (once : ∀ e change, f (edit e change) = f e) (e : EdgeIntent)
    (edits : List EdgeEdit) : f (e.editAll edits) = f e := by
  unfold editAll
  induction edits generalizing e with
  | nil => rfl
  | cons edit edits ih => rw [List.foldl_cons, ih, once]

theorem owned_editAll (e : EdgeIntent) (edits : List EdgeEdit) (v : Variable) : (e.editAll edits).owned v = e.owned v :=
  editAll_keeps (f := owned v) (fun e edit => by cases e <;> cases edit <;> rfl) e edits

theorem mem_owned_self (e : EdgeIntent) (v : Variable) : v ∈ e.owned v := by
  cases e <;> exact List.mem_cons_self

end EdgeIntent

inductive Place where
  | node (v : Variable)
  | edge (v : Variable)
deriving DecidableEq

namespace Plan

def Holds (p : Plan) : Place → Variable → Prop
  | .node v, w => w = v ∧ p.nodes.contains v = true
  | .edge v, w => ∃ e, p.edges.get? v = some e ∧ w ∈ e.owned v

/-- Variables and intents belong together. -/
structure Owned (p : Plan) : Prop where
  sound : p.supply.Sound
  outstanding : ∀ w, p.supply.isOutstanding w = true ↔ ∃ a, p.Holds a w
  unique : ∀ a b w, p.Holds a w → p.Holds b w → a = b
  distinct : ∀ v e, p.edges.get? v = some e → (e.owned v).Nodup
  bound : ∀ n v, p.supply.bound.get? n = some v ↔ (p.nodes.get? v).map NodeIntent.node? = some (some n)

theorem release_of_get? {p : Plan} {v : Variable} {e : EdgeIntent} (found : p.edges.get? v = some e) :
    ∃ journal storedEdges, p.release v =
      (true, { p with supply := p.supply.releaseAll (e.owned v), journal, edges := p.edges.erase v, storedEdges }) := by
  unfold release
  rw [found]
  exact ⟨_, _, rfl⟩

theorem unmap_cases (p : Plan) (v : Variable) : p.unmap v = (false, p) ∨
    ∃ n, p.nodes.get? v = some (.update n) ∧ (p.edges.values.all fun e => !e.touches v) = true ∧
      p.unmap v = (true, { p with
        supply := (p.supply.release v).2
        journal := p.journal.forgetVisits v
        nodes := p.nodes.erase v }) := by
  unfold unmap
  cases found : p.nodes.get? v with
  | none => exact .inl rfl
  | some n =>
    cases n with
    | create n => exact .inl rfl
    | update n =>
      by_cases apart : (p.edges.values.all fun e => !e.touches v) = true
      · exact .inr ⟨n, rfl, apart, if_pos apart⟩
      · exact .inl (if_neg apart)

theorem holds_node_self {p : Plan} {v : Variable} {n : NodeIntent} (found : p.nodes.get? v = some n) :
    p.Holds (.node v) v := ⟨rfl, SortedMap.contains_iff.mpr ⟨n, found⟩⟩

theorem holds_edge_self {p : Plan} {v : Variable} {e : EdgeIntent} (found : p.edges.get? v = some e) :
    p.Holds (.edge v) v := ⟨e, found, e.mem_owned_self v⟩

theorem get?_nodes_of_absent {p : Plan} {v : Variable} (absent : ¬p.Holds (.node v) v) : p.nodes.get? v = none := by
  cases found : p.nodes.get? v with
  | none => rfl
  | some n => exact absurd (holds_node_self found) absent

theorem get?_edges_of_absent {p : Plan} {v : Variable} (absent : ¬p.Holds (.edge v) v) : p.edges.get? v = none := by
  cases found : p.edges.get? v with
  | none => rfl
  | some e => exact absurd (holds_edge_self found) absent

namespace Owned

theorem ofSupply {p : Plan} (sound : p.supply.Sound) (idle : ∀ v, p.supply.isOutstanding v = false)
    (unbound : ∀ n, p.supply.bound.get? n = none) (nodes : p.nodes = ∅) (edges : p.edges = ∅) : p.Owned := by
  have empty : ∀ a w, ¬p.Holds a w := by
    intro a w held
    cases a with
    | node v =>
      rw [Holds, nodes] at held
      cases held.2
    | edge v =>
      rw [Holds, edges] at held
      obtain ⟨e, found, -⟩ := held
      cases found
  refine ⟨sound, fun w => ?_, fun a b w held => absurd held (empty a w), fun v e found => ?_, fun n v => ?_⟩
  · simp [idle, empty]
  · rw [edges] at found
    cases found
  · rw [unbound, nodes]
    simp

theorem ofConfig (c : Config) : (ofConfig c).Owned :=
  ofSupply (Supply.new_sound _) (Supply.isOutstanding_new _) (fun _ => rfl) rfl rfl

theorem congr {p q : Plan} (owned : p.Owned) (supply : q.supply = p.supply)
    (nodes : ∀ v, (q.nodes.get? v).map NodeIntent.node? = (p.nodes.get? v).map NodeIntent.node?)
    (edges : ∀ v, (q.edges.get? v).map (EdgeIntent.owned v) = (p.edges.get? v).map (EdgeIntent.owned v)) :
    q.Owned := by
  have held : ∀ {r : Plan} {v w}, r.Holds (.edge v) w ↔
      ∃ vs, (r.edges.get? v).map (EdgeIntent.owned v) = some vs ∧ w ∈ vs := by
    intro r v w
    simp only [Holds, Option.map_eq_some_iff]
    apply Iff.intro
    · intro h
      obtain ⟨e, found, member⟩ := h
      exact ⟨_, ⟨e, found, rfl⟩, member⟩
    · intro h
      obtain ⟨_, ⟨e, found, rfl⟩, member⟩ := h
      exact ⟨e, found, member⟩
  have same : ∀ a w, q.Holds a w ↔ p.Holds a w := by
    intro a w
    cases a with
    | node v =>
      have known := congrArg Option.isSome (nodes v)
      rw [Option.isSome_map, Option.isSome_map] at known
      rw [Holds, Holds, SortedMap.contains, SortedMap.contains, known]
    | edge v =>
      rw [held, held, edges]
  refine ⟨supply ▸ owned.sound, fun w => ?_, fun a b w ha hb => ?_, fun v e found => ?_, fun n v => ?_⟩
  · simp only [supply, owned.outstanding, same]
  · exact owned.unique a b w ((same a w).mp ha) ((same b w).mp hb)
  · have here := edges v
    rw [found] at here
    obtain ⟨d, before, as⟩ := Option.map_eq_some_iff.mp here.symm
    exact as ▸ owned.distinct v d before
  · rw [supply, owned.bound, nodes]

theorem absent_of_free {p : Plan} (owned : p.Owned) {v : Variable} (free : p.supply.isOutstanding v = false)
    (a : Place) : ¬p.Holds a v := by
  intro held
  rw [(owned.outstanding v).mpr ⟨a, held⟩] at free
  cases free

theorem nodes_of_free {p : Plan} (owned : p.Owned) {v : Variable} (free : p.supply.isOutstanding v = false) :
    p.nodes.get? v = none := get?_nodes_of_absent (owned.absent_of_free free _)

theorem edges_of_free {p : Plan} (owned : p.Owned) {v : Variable} (free : p.supply.isOutstanding v = false) :
    p.edges.get? v = none := get?_edges_of_absent (owned.absent_of_free free _)

theorem insertNode {p q : Plan} (owned : p.Owned) {v : Variable} {n : NodeIntent}
    (taken : Supply.Takes p.supply q.supply [v])
    (bound : ∀ m w, q.supply.bound.get? m = some w ↔ p.supply.bound.get? m = some w ∨ w = v ∧ n.node? = some m)
    (nodes : q.nodes = p.nodes.insert v n) (edges : q.edges = p.edges) : q.Owned := by
  have free := taken.free v List.mem_cons_self
  have held : ∀ a w, q.Holds a w ↔ a = .node v ∧ w = v ∨ p.Holds a w := by
    intro a w
    cases a with
    | node u =>
      simp only [Holds, nodes, SortedMap.contains_insert, Bool.or_eq_true, decide_eq_true_eq, Place.node.injEq]
      apply Iff.intro
      · intro h
        obtain ⟨rfl, rfl | known⟩ := h
        · exact .inl ⟨rfl, rfl⟩
        · exact .inr ⟨rfl, known⟩
      · intro h
        rcases h with ⟨rfl, rfl⟩ | ⟨rfl, known⟩
        · exact ⟨rfl, .inl rfl⟩
        · exact ⟨rfl, .inr known⟩
    | edge u =>
      simp [Holds, edges]
  refine ⟨taken.sound, fun w => ?_, fun a b w ha hb => ?_, fun u e found => ?_, fun m w => ?_⟩
  · simp only [taken.outstanding, List.mem_singleton, owned.outstanding, held, exists_or, exists_eq_left]
  · rw [held] at ha hb
    rcases ha with ⟨ha, here⟩ | ha <;> rcases hb with ⟨hb, there⟩ | hb
    · rw [ha, hb]
    · exact absurd (here ▸ hb) (owned.absent_of_free free b)
    · exact absurd (there ▸ ha) (owned.absent_of_free free a)
    · exact owned.unique a b w ha hb
  · exact owned.distinct u e (edges ▸ found)
  · rw [bound, nodes, SortedMap.get?_insert, owned.bound]
    by_cases here : w = v
    · subst here
      simp [owned.nodes_of_free free]
    · simp [here]

theorem insertEdge {p q : Plan} (owned : p.Owned) {v : Variable} {e : EdgeIntent}
    (taken : Supply.Takes p.supply q.supply (e.owned v)) (bound : q.supply.bound = p.supply.bound)
    (nodes : q.nodes = p.nodes) (edges : q.edges = p.edges.insert v e) : q.Owned := by
  have free : ∀ w ∈ e.owned v, ∀ a, ¬p.Holds a w := fun w member =>
    owned.absent_of_free (taken.free w member)
  have unused := owned.edges_of_free (taken.free v (e.mem_owned_self v))
  have held : ∀ a w, q.Holds a w ↔ a = .edge v ∧ w ∈ e.owned v ∨ p.Holds a w := by
    intro a w
    cases a with
    | node u =>
      simp [Holds, nodes]
    | edge u =>
      simp only [Holds, edges, SortedMap.get?_insert, Place.edge.injEq]
      by_cases here : u = v
      · subst here
        simp [unused]
      · simp [here]
  refine ⟨taken.sound, fun w => ?_, fun a b w ha hb => ?_, fun u d found => ?_, fun m w => ?_⟩
  · simp only [taken.outstanding, owned.outstanding, held, exists_or, exists_eq_left]
  · rw [held] at ha hb
    rcases ha with ⟨rfl, ha⟩ | ha <;> rcases hb with ⟨rfl, hb⟩ | hb
    · rfl
    · exact absurd hb (free w ha b)
    · exact absurd ha (free w hb a)
    · exact owned.unique a b w ha hb
  · rw [edges, SortedMap.get?_insert] at found
    split at found
    · rename_i here
      cases found
      exact here ▸ taken.distinct
    · exact owned.distinct u d found
  · rw [bound, nodes, owned.bound]

/-- Takes back the intents at some variables and gives back all the variables that belong to them. -/
theorem drop {p q : Plan} (owned : p.Owned) (vs : List Variable) (supply : q.supply = p.supply.releaseAll vs)
    (whole : ∀ a u w, p.Holds a u → p.Holds a w → u ∈ vs → w ∈ vs)
    (nodes : ∀ v, q.nodes.get? v = if v ∈ vs then none else p.nodes.get? v)
    (edges : ∀ v, q.edges.get? v = if v ∈ vs then none else p.edges.get? v) : q.Owned := by
  have held : ∀ a w, q.Holds a w ↔ p.Holds a w ∧ w ∉ vs := by
    intro a w
    cases a with
    | node v =>
      simp only [Holds, SortedMap.contains_iff, nodes]
      apply Iff.intro
      · intro h
        obtain ⟨rfl, n, found⟩ := h
        split at found
        · cases found
        · exact ⟨⟨rfl, n, found⟩, ‹_›⟩
      · intro h
        obtain ⟨⟨rfl, n, found⟩, kept⟩ := h
        exact ⟨rfl, n, by rw [if_neg kept, found]⟩
    | edge v =>
      simp only [Holds, edges]
      apply Iff.intro
      · intro h
        obtain ⟨e, found, member⟩ := h
        split at found
        · cases found
        · rename_i kept
          refine ⟨⟨e, found, member⟩, fun dropped => kept ?_⟩
          exact whole (.edge v) w v ⟨e, found, member⟩ (holds_edge_self found) dropped
      · intro h
        obtain ⟨⟨e, found, member⟩, kept⟩ := h
        have here : v ∉ vs := fun dropped =>
          kept (whole (.edge v) v w (holds_edge_self found) ⟨e, found, member⟩ dropped)
        exact ⟨e, by rw [if_neg here, found], member⟩
  refine ⟨supply ▸ owned.sound.releaseAll vs, fun w => ?_, fun a b w ha hb => ?_, fun v e found => ?_, fun n v => ?_⟩
  · rw [supply, Supply.isOutstanding_releaseAll, Bool.and_eq_true, decide_eq_true_eq, owned.outstanding]
    simp only [held, exists_and_right]
    exact And.comm
  · exact owned.unique a b w ((held a w).mp ha).1 ((held b w).mp hb).1
  · rw [edges] at found
    split at found
    · cases found
    · exact owned.distinct v e found
  · rw [supply, Supply.get?_bound_releaseAll, Option.filter_eq_some_iff, owned.bound, nodes]
    by_cases dropped : v ∈ vs
    · -- a bound variable belongs to its node, so that giving it back frees the node
      rw [if_pos dropped]
      simp only [dropped, decide_true, Bool.true_and, Bool.not_eq_true', Option.map_none, reduceCtorEq, iff_false,
        not_and]
      intro here free
      rw [owned.nodes_of_free free] at here
      cases here
    · simp [dropped]

variable {p : Plan}

theorem reindex (owned : p.Owned) (journal : Journal) (storedEdges : SortedMap EdgeId Variable) :
    ({ p with journal, storedEdges } : Plan).Owned :=
  owned.congr rfl (fun _ => rfl) fun _ => rfl

theorem editNode (owned : p.Owned) (v : Variable) (edits : List NodeEdit) : (p.editNode v edits).Owned :=
  owned.congr rfl (SortedMap.map_get?_modify (fun n => n.node?_editAll edits) p.nodes v) fun _ => rfl

theorem editEdge (owned : p.Owned) (v : Variable) (edits : List EdgeEdit) : (p.editEdge v edits).Owned :=
  owned.congr rfl (fun _ => rfl) fun w => SortedMap.map_get?_modify (fun e => e.owned_editAll edits w) p.edges v w

theorem takeNode (owned : p.Owned) (note : Journal → Variable → Journal) (e : Entity) :
    ((p.takeVariable note).2.addNode p.supply.take.1 (.new e)).Owned := by
  have absent := owned.nodes_of_free p.supply.isOutstanding_take_self
  refine owned.insertNode (n := .new e) (Supply.takes_one owned.sound) (fun m w => ?_)
    (SortedMap.insertIfNew_of_get?_eq_none _ absent) rfl
  rw [show (_ : Plan).supply.bound = p.supply.bound from p.supply.bound_take]
  simp [NodeIntent.new, NodeIntent.node?]

theorem takeEdge (owned : p.Owned) (note : Journal → Variable → Journal) (e : EdgeIntent)
    (single : e.owned p.supply.take.1 = [p.supply.take.1]) :
    ((p.takeVariable note).2.addEdge p.supply.take.1 e).Owned := by
  have absent := owned.edges_of_free p.supply.isOutstanding_take_self
  exact owned.insertEdge (single ▸ Supply.takes_one owned.sound) p.supply.bound_take rfl
    (SortedMap.insertIfNew_of_get?_eq_none e absent)

theorem newNode (owned : p.Owned) (e : Entity) : (p.newNode e).2.Owned := by
  unfold Plan.newNode
  split
  · exact owned
  · exact owned.takeNode _ e

theorem storedNode (owned : p.Owned) (e : Entity) (n : NodeId) : (p.storedNode e n).2.Owned := by
  unfold Plan.storedNode
  split
  · exact owned
  · dsimp only
    unfold Supply.takeFor
    split
    · -- the node has its intent already, and only the object is visited anew
      rename_i v found
      obtain ⟨m, here, -⟩ := Option.map_eq_some_iff.mp ((owned.bound n v).mp found)
      have known : p.nodes.contains v = true := SortedMap.contains_iff.mpr ⟨m, here⟩
      have same := SortedMap.insertIfNew_of_contains (NodeIntent.stored n) known
      refine owned.congr rfl (fun w => ?_) fun _ => rfl
      rw [addNode, same]
    · rename_i unbound
      have free := p.supply.isOutstanding_take_self
      have taken := Supply.takes_one owned.sound
      refine owned.insertNode (v := p.supply.take.1) ⟨taken.sound.rebind _, taken.free, taken.distinct,
        taken.outstanding⟩ (fun m w => ?_)
        (SortedMap.insertIfNew_of_get?_eq_none _ (owned.nodes_of_free free)) rfl
      change (p.supply.take.2.bound.insert n p.supply.take.1).get? m = some w ↔ _
      rw [SortedMap.get?_insert, Supply.bound_take]
      by_cases here : m = n
      · subst here
        simp [unbound, NodeIntent.stored, NodeIntent.node?, eq_comm]
      · have other : n ≠ m := fun same => here same.symm
        simp [here, other, NodeIntent.stored, NodeIntent.node?]

theorem newEdge (owned : p.Owned) (type : String) : (p.newEdge type).2.Owned :=
  owned.takeEdge (fun j _ => j) (.create { type }) rfl

theorem connect (owned : p.Owned) (source : Variable) (type : String) (target : Variable) (d : Direction) :
    (p.connect source type target d).2.Owned := by
  unfold Plan.connect
  dsimp only
  split
  · exact owned
  · exact owned.takeEdge _ (.create { type, source := some source, target := some target, direction := d }) rfl

theorem edgeObject (owned : p.Owned) (e : Entity) (type : String) : (p.edgeObject e type).2.Owned := by
  unfold Plan.edgeObject
  split
  · exact owned
  · exact owned.takeEdge _ (.create { type, entity := some e }) rfl

theorem edgePair (owned : p.Owned) (type : String) : (p.edgePair type).2.Owned := by
  have absent := owned.edges_of_free p.supply.isOutstanding_take_self
  have bound : p.supply.take.2.take.2.bound = p.supply.bound := by simp
  exact owned.insertEdge (e := .pair { reverse := p.supply.take.2.take.1, type }) (Supply.takes_two owned.sound) bound
    rfl (SortedMap.insertIfNew_of_get?_eq_none _ absent)

theorem storedEdge (owned : p.Owned) (e : EdgeId) (type : String) : (p.storedEdge e type).2.Owned := by
  unfold Plan.storedEdge
  split
  · exact owned
  · have patched := owned.takeEdge (fun j _ => j.visitEdge e) (.patch { type, edge := e }) rfl
    exact patched.reindex _ (p.storedEdges.insert e p.supply.take.1)

theorem release (owned : p.Owned) (v : Variable) : (p.release v).2.Owned := by
  cases found : p.edges.get? v with
  | none =>
    unfold Plan.release
    rw [found]
    exact owned
  | some e =>
    obtain ⟨journal, storedEdges, released⟩ := release_of_get? found
    have held : ∀ w ∈ e.owned v, p.Holds (.edge v) w := fun w member => ⟨e, found, member⟩
    rw [released]
    refine owned.drop (e.owned v) rfl (fun a u w hu hw dropped => ?_) (fun w => ?_) fun w => ?_
    · obtain rfl := owned.unique a (.edge v) u hu (held u dropped)
      obtain ⟨d, again, member⟩ := hw
      rw [found] at again
      exact Option.some_inj.mp again ▸ member
    · by_cases dropped : w ∈ e.owned v
      · rw [if_pos dropped]
        refine get?_nodes_of_absent (p := p) fun node => ?_
        cases owned.unique _ _ w node (held w dropped)
      · rw [if_neg dropped]
    · rw [SortedMap.get?_erase]
      by_cases same : w = v
      · subst same
        rw [if_pos rfl, if_pos (e.mem_owned_self w)]
      · rw [if_neg same]
        by_cases dropped : w ∈ e.owned v
        · rw [if_pos dropped]
          refine get?_edges_of_absent (p := p) fun other => ?_
          cases owned.unique _ _ w other (held w dropped)
          exact same rfl
        · rw [if_neg dropped]

theorem unmap (owned : p.Owned) (v : Variable) : (p.unmap v).2.Owned := by
  rcases p.unmap_cases v with kept | ⟨n, found, -, unmapped⟩
  · rw [kept]
    exact owned
  · have node := holds_node_self found
    rw [unmapped]
    refine owned.drop [v] rfl (fun a u w hu hw dropped => ?_) (fun w => ?_) fun w => ?_
    · rw [List.mem_singleton] at dropped ⊢
      subst dropped
      obtain rfl := owned.unique a (.node u) u hu node
      exact hw.1
    · simp only [SortedMap.get?_erase, List.mem_singleton]
    · by_cases here : w = v
      · rw [if_pos (List.mem_singleton.mpr here)]
        refine get?_edges_of_absent (p := p) fun edge => ?_
        cases owned.unique _ _ w edge (here ▸ node)
      · rw [if_neg fun member => here (List.mem_singleton.mp member)]

theorem unrelate (owned : p.Owned) (t : Triple) (e : Option EdgeId) : (p.unrelate t e).2.Owned := by
  unfold Plan.unrelate
  split
  · exact owned.release _
  · exact owned.insertEdge (v := p.supply.take.1) (e := .delete ⟨t, e⟩) (Supply.takes_one owned.sound)
      p.supply.bound_take rfl rfl

theorem mem_owned {w : Variable} : w ∈ p.owned ↔ ∃ a, p.Holds a w := by
  simp only [Plan.owned, List.mem_append, List.mem_flatMap, Prod.exists, SortedMap.mem_keys_iff_contains]
  apply Iff.intro
  · intro h
    rcases h with ⟨v, e, entry, member⟩ | known
    · exact ⟨.edge v, e, SortedMap.get?_eq_some_iff.mpr entry, member⟩
    · exact ⟨.node w, rfl, known⟩
  · intro h
    obtain ⟨v | v, held⟩ := h
    · exact .inr (held.1 ▸ held.2)
    · obtain ⟨e, found, member⟩ := held
      exact .inl ⟨v, e, SortedMap.get?_eq_some_iff.mp found, member⟩

theorem compile (owned : p.Owned) {finished : Journal} {q : Plan} (compiled : p.compile = .ok (finished, q)) :
    q.Owned := by
  obtain ⟨-, -, -, -, -, empty⟩ := compile_cases compiled
  have all : ∀ {a w}, p.Holds a w → w ∈ p.owned := fun held => mem_owned.mpr ⟨_, held⟩
  subst empty
  refine owned.drop p.owned rfl (fun a u w _ held _ => all held) (fun w => ?_) fun w => ?_
  · split
    · rfl
    · rename_i kept
      exact (get?_nodes_of_absent (p := p) fun held => kept (all held)).symm
  · split
    · rfl
    · rename_i kept
      exact (get?_edges_of_absent (p := p) fun held => kept (all held)).symm

theorem requestNode (owned : p.Owned) (request : NodeRequest) : (p.requestNode request).2.Owned := by
  cases request with
  | new e => exact owned.newNode e
  | stored e n => exact owned.storedNode e n
  | under v => exact owned

theorem requestEdge (owned : p.Owned) (request : EdgeRequest) : (p.requestEdge request).2.Owned := by
  cases request with
  | new type => exact owned.newEdge type
  | connect source type target d => exact owned.connect source type target d
  | object e type => exact owned.edgeObject e type
  | pair type => exact owned.edgePair type
  | stored e type => exact owned.storedEdge e type
  | under v => exact owned

theorem step (p : Plan) (c : PlanCall) (owned : p.Owned) : (p.step c).Owned := by
  cases c with
  | node request edits =>
    have asked := owned.requestNode request
    rw [step_node]
    rcases answer : p.requestNode request with ⟨_ | v, q⟩ <;> rw [answer] at asked
    · exact asked
    · exact asked.editNode v edits
  | edge request edits =>
    have asked := owned.requestEdge request
    rw [step_edge]
    rcases answer : p.requestEdge request with ⟨_ | v, q⟩ <;> rw [answer] at asked
    · exact asked
    · exact asked.editEdge v edits
  | unrelate t e => exact owned.unrelate t e
  | nodeUnder v => exact owned
  | edgeUnder v => exact owned
  | touches v node => exact owned
  | release v => exact owned.release v
  | unmap v => exact owned.unmap v
  | statements =>
    rw [step_statements]
    exact owned
  | compile =>
    rw [step_compile]
    cases compiled : p.compile with
    | error failure => exact owned
    | ok answer => exact owned.compile compiled
  | config => exact owned
  | journal c =>
    rw [step_journal]
    exact owned.reindex _ _

theorem after (c : Config) (calls : List PlanCall) : ((Plan.ofConfig c).after calls).Owned :=
  after_keeps step (ofConfig c) calls

end Owned

end Plan

end GraphWrites
