import GraphWrites.Proofs.Plan.Statements

namespace GraphWrites.Plan

inductive Action where
  | call (c : PlanCall)
  | replaceJournal (j : Journal)

def act (p : Plan) : Action → Plan
  | .call c => p.step c
  | .replaceJournal journal => { p with journal }

def acted (p : Plan) (actions : List Action) : Plan := actions.foldl act p

namespace Owned

variable {p : Plan}

theorem act (owned : p.Owned) (a : Action) : (p.act a).Owned := by
  cases a with
  | call c => exact owned.step p c
  | replaceJournal j => exact owned.reindex j p.storedEdges

theorem acted (owned : p.Owned) (actions : List Action) : (p.acted actions).Owned := by
  induction actions generalizing p with
  | nil => exact owned
  | cons a actions ih => exact ih (owned.act a)

theorem disjoint_of_ne (owned : p.Owned) {v w : Variable} {d e : EdgeIntent} (here : p.edges.get? v = some d)
    (there : p.edges.get? w = some e) (differ : v ≠ w) : List.Disjoint (d.owned v) (e.owned w) := by
  intro u left right
  have same := owned.unique (.edge v) (.edge w) u ⟨d, here, left⟩ ⟨e, there, right⟩
  exact differ (Place.edge.inj same)

theorem nodup (owned : p.Owned) : p.owned.Nodup := by
  have entries : ∀ {v e}, (v, e) ∈ p.edges.entries → p.edges.get? v = some e := SortedMap.get?_eq_some_iff.mpr
  have edges : (p.edges.entries.flatMap fun entry => entry.2.owned entry.1).Nodup := by
    refine List.nodup_flatMap.mpr ⟨fun entry member => owned.distinct entry.1 entry.2 (entries member), ?_⟩
    refine p.edges.ascending.imp_of_mem fun {a b} left right less => ?_
    apply owned.disjoint_of_ne (entries left) (entries right)
    intro same
    simp [same, Std.ReflCmp.compare_self] at less
  refine List.nodup_append.mpr ⟨edges, p.nodes.keys_nodup, ?_⟩
  intro v edge w node same
  subst same
  obtain ⟨⟨u, e⟩, entry, member⟩ := List.mem_flatMap.mp edge
  have held : p.Holds (.edge u) v := ⟨e, entries entry, member⟩
  cases owned.unique (.edge u) (.node v) v held ⟨rfl, SortedMap.mem_keys_iff_contains.mp node⟩

theorem mem_owned_iff_outstanding (owned : p.Owned) (v : Variable) :
    v ∈ p.owned ↔ p.supply.isOutstanding v = true := by
  rw [mem_owned, owned.outstanding]

theorem live_eq (owned : p.Owned) : p.supply.live = p.owned.length :=
  owned.sound.live_eq_length owned.nodup owned.mem_owned_iff_outstanding

theorem get?_bound_iff (owned : p.Owned) {n : NodeId} {v : Variable} :
    p.supply.bound.get? n = some v ↔ ∃ s, p.nodes.get? v = some (.update s) ∧ s.node = n := by
  rw [owned.bound, Option.map_eq_some_iff]
  apply Iff.intro
  · intro h
    obtain ⟨i, found, stored⟩ := h
    cases i with
    | create i => cases stored
    | update s => exact ⟨s, found, Option.some_inj.mp stored⟩
  · intro h
    obtain ⟨s, found, stored⟩ := h
    exact ⟨_, found, congrArg some stored⟩

theorem idle (owned : p.Owned) (nodes : p.nodes = ∅) (edges : p.edges = ∅) :
    (∀ v, p.supply.isOutstanding v = false) ∧ p.supply.live = 0 ∧ p.supply.bound = ∅ := by
  have none : p.owned = [] := by
    rw [Plan.owned, nodes, edges]
    rfl
  refine ⟨fun v => ?_, ?_, ?_⟩
  · rw [Bool.eq_false_iff]
    intro out
    have member := (owned.mem_owned_iff_outstanding v).mpr out
    rw [none] at member
    cases member
  · rw [owned.live_eq, none]
    rfl
  · apply SortedMap.ext_get?
    intro n
    cases found : p.supply.bound.get? n with
    | none => rfl
    | some v =>
      obtain ⟨s, here, -⟩ := owned.get?_bound_iff.mp found
      rw [nodes] at here
      cases here

end Owned

/-- The variables of the intents are the outstanding ones, each belongs to one intent alone, and a stored node is
bound to the variable of its intent. -/
structure Accounted (p : Plan) : Prop where
  distinct : p.owned.Nodup
  outstanding : ∀ v, v ∈ p.owned ↔
    v.index < p.supply.fresh ∧ p.supply.pooled.contains v = false ∧ p.supply.retired.contains v = false
  live : p.supply.live = p.owned.length
  bound : ∀ n v, p.supply.bound.get? n = some v ↔ ∃ s, p.nodes.get? v = some (.update s) ∧ s.node = n

theorem Owned.accounted {p : Plan} (owned : p.Owned) : p.Accounted where
  distinct := owned.nodup
  outstanding v := by rw [owned.mem_owned_iff_outstanding, Supply.isOutstanding_iff]
  live := owned.live_eq
  bound _ _ := owned.get?_bound_iff

/-- Whatever is done to a plan, its variables are accounted for, and a save that is compiled gives all of them back. -/
theorem accounted_and_given_back (c : Config) (actions : List Action) :
    ((ofConfig c).acted actions).Accounted ∧
      ∀ finished q, ((ofConfig c).acted actions).compile = .ok (finished, q) →
        (∀ v, q.supply.isOutstanding v = false) ∧ q.supply.live = 0 ∧ q.supply.bound = ∅ := by
  have owned : ((ofConfig c).acted actions).Owned := (Owned.ofConfig c).acted actions
  refine ⟨owned.accounted, fun finished q compiled => ?_⟩
  have left := owned.compile compiled
  obtain ⟨-, -, -, -, -, empty⟩ := compile_cases compiled
  subst empty
  exact left.idle rfl rfl

def joinedBothWays : List Action :=
  [.call (.node (.stored ⟨1⟩ ⟨10⟩) []), .call (.node (.stored ⟨2⟩ ⟨20⟩) []), .call (.edge (.pair "T") [.relate ⟨0⟩ ⟨1⟩]),
    .replaceJournal .empty, .call (.node (.stored ⟨1⟩ ⟨10⟩) []), .call (.edge (.new "U") []), .call (.release ⟨4⟩)]

theorem joinedBothWays_given_back : ∃ finished q,
    ((ofConfig .default).acted joinedBothWays).owned = [⟨2⟩, ⟨3⟩, ⟨0⟩, ⟨1⟩] ∧
      ((ofConfig .default).acted joinedBothWays).compile = .ok (finished, q) ∧ q.supply.live = 0 ∧ q.supply.bound = ∅ := by
  obtain ⟨r, rendered⟩ : ∃ r, ((ofConfig .default).acted joinedBothWays).render = .ok r := ⟨_, rfl⟩
  have compiled := compile_eq rendered
  obtain ⟨-, left⟩ := accounted_and_given_back .default joinedBothWays
  exact ⟨_, _, by decide, compiled, (left _ _ compiled).2⟩

end GraphWrites.Plan
