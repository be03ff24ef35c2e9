import GraphWrites.Proofs.Plan.Requests
import Mathlib.Data.List.Induction

namespace GraphWrites

def Direction.opposite : Direction → Direction
  | outgoing => incoming
  | incoming => outgoing

theorem Direction.link_opposite (d : Direction) (source : Variable) (type : String) (target : Variable) :
    d.opposite.link target type source = d.link source type target := by
  cases d <;> rfl

theorem Direction.orient_some (d : Direction) (source : Variable) (type : String) (target : Variable) :
    d.orient (some source) (some target) = (some (d.link source type target).source, some (d.link source type target).target) := by
  cases d <;> rfl

namespace EdgeIntent

def ends? : EdgeIntent → Option (Option Variable × Option Variable)
  | create e => some e.ends
  | patch _ | delete _ | pair _ => none

theorem type_editAll (x : EdgeIntent) (edits : List EdgeEdit) : (x.editAll edits).type = x.type :=
  editAll_keeps (fun x edit => by cases x <;> cases edit <;> rfl) x edits

end EdgeIntent

namespace Plan

/-- Every link leads to an intent that suits it. -/
def Leads (suits : Link → EdgeIntent → Prop) (p : Plan) : Prop :=
  ∀ l v, p.journal.links.get? l = some v → ∃ x, p.edges.get? v = some x ∧ suits l x

namespace Leads

variable {suits : Link → EdgeIntent → Prop} {p q : Plan}

theorem congr (leads : p.Leads suits) (edges : q.edges = p.edges)
    (links : ∀ l v, q.journal.links.get? l = some v → p.journal.links.get? l = some v) : q.Leads suits := by
  intro l v linked
  rw [edges]
  exact leads l v (links l v linked)

theorem insertEdge (leads : p.Leads suits) {v : Variable} {x : EdgeIntent} (absent : p.edges.get? v = none)
    (edges : q.edges = p.edges.insert v x)
    (links : ∀ l w, q.journal.links.get? l = some w → w = v ∧ suits l x ∨ p.journal.links.get? l = some w) :
    q.Leads suits := by
  intro l w linked
  rw [edges]
  rcases links l w linked with ⟨rfl, suited⟩ | old
  · exact ⟨x, SortedMap.get?_insert_self _ _ _, suited⟩
  · obtain ⟨y, found, suited⟩ := leads l w old
    have other : w ≠ v := by
      rintro rfl
      rw [absent] at found
      cases found
    exact ⟨y, by rw [SortedMap.get?_insert_of_ne _ _ other, found], suited⟩

theorem editEdge (leads : p.Leads suits) (v : Variable) (edits : List EdgeEdit)
    (edited : ∀ l x, p.journal.links.get? l = some v → p.edges.get? v = some x → suits l x → suits l (x.editAll edits)) :
    (p.editEdge v edits).Leads suits := by
  intro l w linked
  obtain ⟨x, found, suited⟩ := leads l w linked
  rw [Plan.editEdge]
  dsimp only
  rw [SortedMap.get?_modify]
  split
  · rename_i here
    subst here
    exact ⟨_, by rw [found]; rfl, edited l x linked found suited⟩
  · exact ⟨x, found, suited⟩

theorem requestNode (leads : p.Leads suits) (request : NodeRequest) : (p.requestNode request).2.Leads suits := by
  cases request with
  | new e =>
    rw [Plan.requestNode, newNode]
    split
    · exact leads
    · exact leads.congr rfl fun _ _ => id
  | stored e n =>
    rw [Plan.requestNode, storedNode]
    split
    · exact leads
    · exact leads.congr rfl fun _ _ => id
  | under v => exact leads

theorem requestEdge (leads : p.Leads suits) (owned : p.Owned)
    (made : ∀ source type target d, suits (d.link source type target)
      (.create { type, source := some source, target := some target, direction := d })) (request : EdgeRequest) :
    (p.requestEdge request).2.Leads suits := by
  rcases owned.requestEdge_cases request with found | ⟨v, x, q, added, adds⟩
  · rw [found]
    exact leads
  · rw [added]
    refine leads.insertEdge (adds.absent owned) adds.edges fun l w linked => ?_
    rw [adds.journal] at linked
    cases request with
    | connect source type target d =>
      rw [EdgeRequest.noted, Journal.addLink, SortedMap.get?_insert] at linked
      obtain ⟨_, intent⟩ := adds.intent
      cases intent
      split at linked
      · rename_i here
        cases linked
        exact .inl ⟨rfl, here ▸ made source type target d⟩
      · exact .inr linked
    | _ => exact .inr linked

theorem release (leads : p.Leads suits) (v : Variable) : (p.release v).2.Leads suits := by
  cases found : p.edges.get? v with
  | none =>
    unfold Plan.release
    rw [found]
    exact leads
  | some x =>
    rw [release_eq found]
    intro l w linked
    rw [Journal.get?_links_foldl_forgetEdge] at linked
    obtain ⟨y, there, suited⟩ := leads l w linked.1
    have other : w ≠ v := fun same => linked.2 (same ▸ x.mem_owned_self v)
    exact ⟨y, by rw [SortedMap.get?_erase_of_ne _ other, there], suited⟩

theorem unrelate (leads : p.Leads suits) (owned : p.Owned) (t : Triple) (e : Option EdgeId) :
    (p.unrelate t e).2.Leads suits := by
  unfold Plan.unrelate
  split
  · exact leads.release _
  · exact leads.insertEdge (owned.edges_of_free p.supply.isOutstanding_take_self) rfl fun _ _ => .inr

end Leads

/-- The edits give a linked edge that the request answers other ends. -/
def Turns (p : Plan) (request : EdgeRequest) (edits : List EdgeEdit) : Prop :=
  ∃ v q, p.requestEdge request = (some v, q) ∧ (∃ l, q.journal.links.get? l = some v) ∧
    ∃ x, q.edges.get? v = some x ∧ (x.editAll edits).ends? ≠ x.ends?

/-- The edge made for the link has other ends. -/
def Turned (p : Plan) (l : Link) : Prop :=
  ∃ v x, p.journal.links.get? l = some v ∧ p.edges.get? v = some x ∧ x.ends? ≠ some (some l.source, some l.target)

variable {suits : Link → EdgeIntent → Prop} {p : Plan}

theorem Leads.act (leads : p.Leads suits) (owned : p.Owned)
    (made : ∀ source type target d, suits (d.link source type target)
      (.create { type, source := some source, target := some target, direction := d }))
    {a : Action} (keeps : a.KeepsIndexes)
    (edited : ∀ request edits, a = .call (.edge request edits) → ∀ v q, p.requestEdge request = (some v, q) →
      ∀ l x, q.journal.links.get? l = some v → q.edges.get? v = some x → suits l x → suits l (x.editAll edits)) :
    (p.act a).Leads suits := by
  cases a with
  | replaceJournal j => cases keeps
  | call c =>
    unfold Plan.act
    cases c with
    | node request edits =>
      have asked := leads.requestNode request
      dsimp only
      rw [step_node]
      rcases answer : p.requestNode request with ⟨_ | v, q⟩ <;> rw [answer] at asked
      · exact asked
      · exact asked.congr rfl fun _ _ => id
    | edge request edits =>
      have asked := leads.requestEdge owned made request
      dsimp only
      rw [step_edge]
      rcases answer : p.requestEdge request with ⟨_ | v, q⟩ <;> rw [answer] at asked
      · exact asked
      · exact asked.editEdge v edits (edited request edits rfl v q answer)
    | unrelate t e => exact leads.unrelate owned t e
    | release v => exact leads.release v
    | unmap v =>
      change (p.unmap v).2.Leads suits
      rcases p.unmap_cases v with kept | ⟨n, -, -, unmapped⟩
      · rw [kept]
        exact leads
      · rw [unmapped]
        exact leads.congr rfl fun _ _ => id
    | statements =>
      dsimp only
      rw [step_statements]
      exact leads
    | compile =>
      dsimp only
      rw [step_compile]
      cases compiled : p.compile with
      | error failure => exact leads
      | ok answer =>
        obtain ⟨-, -, -, -, -, empty⟩ := compile_cases compiled
        dsimp only
        rw [empty]
        intro l v linked
        cases linked
    | journal c =>
      have alone : Action.OnJournal (.call (.journal c)) := True.intro
      have edges : (p.act (.call (.journal c))).edges = p.edges := by rw [act_eq_of_onJournal p alone]
      refine leads.congr edges fun l v linked => ?_
      rcases p.journal_act_cases alone with ⟨j, other⟩ | ⟨c, call, untouched | ⟨answer, called⟩⟩
      · cases other
      · exact untouched ▸ linked
      · cases call
        exact (Journal.kept_of_call keeps called).2.2 l v linked
    | _ => exact leads

theorem acted_concat (p : Plan) (actions : List Action) (a : Action) :
    p.acted (actions ++ [a]) = (p.acted actions).act a := by
  rw [acted, List.foldl_append]
  rfl

theorem Leads.acted (c : Config) {actions : List Action} (keeps : ∀ a ∈ actions, a.KeepsIndexes)
    (made : ∀ source type target d, suits (d.link source type target)
      (.create { type, source := some source, target := some target, direction := d }))
    (edited : ∀ before request edits after, actions = before ++ .call (.edge request edits) :: after →
      ∀ v q, ((ofConfig c).acted before).requestEdge request = (some v, q) →
      ∀ l x, q.journal.links.get? l = some v → q.edges.get? v = some x → suits l x → suits l (x.editAll edits)) :
    ((ofConfig c).acted actions).Leads suits := by
  induction actions using List.reverseRecOn with
  | nil => exact nofun
  | append_singleton actions a ih =>
    have before : ((ofConfig c).acted actions).Leads suits := by
      refine ih (fun b member => keeps b (List.mem_append_left _ member)) fun before request edits after split => ?_
      exact edited before request edits (after ++ [a]) (by rw [split, List.append_assoc, List.cons_append])
    rw [acted_concat]
    refine before.act ((Owned.ofConfig c).acted actions) made (keeps a (by simp)) fun request edits same => ?_
    exact edited actions request edits [] (by rw [same])

theorem leads_by_type (c : Config) {actions : List Action} (keeps : ∀ a ∈ actions, a.KeepsIndexes) :
    ((ofConfig c).acted actions).Leads fun l x => x.type = l.type ∧ x.object? = some none := by
  refine Leads.acted c keeps (fun _ _ _ _ => ⟨rfl, rfl⟩) fun _ _ edits _ _ _ _ _ l x _ _ suited => ?_
  rwa [x.type_editAll, x.object?_editAll]

theorem turns_of_turned (c : Config) {actions : List Action} (keeps : ∀ a ∈ actions, a.KeepsIndexes) {l : Link}
    (turned : ((ofConfig c).acted actions).Turned l) :
    ∃ before request edits after, actions = before ++ .call (.edge request edits) :: after ∧
      ((ofConfig c).acted before).Turns request edits := by
  by_contra never
  have straight : ((ofConfig c).acted actions).Leads fun l x => x.ends? = some (some l.source, some l.target) := by
    refine Leads.acted c keeps (fun source type target d => congrArg some (d.orient_some source type target)) ?_
    intro before request edits after split v q answered l x linked found suited
    rw [← suited]
    by_contra turns
    exact never ⟨before, request, edits, after, split, v, q, answered, ⟨l, linked⟩, x, found, turns⟩
  obtain ⟨v, x, linked, found, off⟩ := turned
  obtain ⟨y, there, suited⟩ := straight l v linked
  rw [found] at there
  cases there
  exact off suited

theorem Owned.linked_of_connect {p q : Plan} (owned : p.Owned) {source target v : Variable} {type : String} {d : Direction}
    (answered : p.requestEdge (.connect source type target d) = (some v, q)) :
    q.journal.links.get? (d.link source type target) = some v ∧ q.edges.contains v = true := by
  rcases owned.requestEdge_cases (.connect source type target d) with found | ⟨w, x, r, added, adds⟩
  · rw [found, Prod.mk.injEq] at answered
    obtain ⟨stands, rfl⟩ := answered
    exact Option.filter_eq_some_iff.mp stands
  · rw [added, Prod.mk.injEq, Option.some_inj] at answered
    obtain ⟨rfl, rfl⟩ := answered
    rw [adds.journal, adds.edges]
    exact ⟨SortedMap.get?_insert_self _ _ _, by simp [SortedMap.contains_insert]⟩

theorem requestEdge_of_linked {q : Plan} {source target v : Variable} {type : String} {d : Direction}
    (linked : q.journal.links.get? (d.link source type target) = some v) (known : q.edges.contains v = true) :
    q.requestEdge (.connect source type target d) = (some v, q) :=
  requestEdge_of_standing (Option.filter_eq_some_iff.mpr ⟨linked, known⟩)

theorem ends_iff_not_turned {l : Link} {v : Variable} {e : NewEdge} (linked : p.journal.links.get? l = some v)
    (found : p.edges.get? v = some (.create e)) : e.ends = (some l.source, some l.target) ↔ ¬p.Turned l := by
  apply Iff.intro
  · intro same turned
    obtain ⟨w, x, there, here, off⟩ := turned
    rw [linked] at there
    cases there
    rw [found] at here
    cases here
    exact off (congrArg some same)
  · intro straight
    by_contra off
    exact straight ⟨v, _, linked, found, fun same => off (Option.some_inj.mp same)⟩

/-- A request for the edge between two nodes answers a new edge of its type that is no object, and the same one when it is
asked for from the other end. The edge has the ends that were asked for unless its link is turned, and links are only
turned by edits. -/
theorem connect_answers_unless_turned (c : Config) {actions : List Action} (keeps : ∀ a ∈ actions, a.KeepsIndexes)
    (source : Variable) (type : String) (target : Variable) (d : Direction) :
    ∃ v e q, ((ofConfig c).acted actions).requestEdge (.connect source type target d) = (some v, q) ∧
      q.edges.get? v = some (.create e) ∧ e.type = type ∧ e.entity = none ∧
      (e.ends = d.orient (some source) (some target) ↔ ¬((ofConfig c).acted actions).Turned (d.link source type target)) ∧
      (∀ edits, (q.editEdge v edits).requestEdge (.connect target type source d.opposite) =
        (some v, q.editEdge v edits)) ∧
      (((ofConfig c).acted actions).Turned (d.link source type target) →
        ∃ before request edits after, actions = before ++ .call (.edge request edits) :: after ∧
          ((ofConfig c).acted before).Turns request edits) := by
  have owned : ((ofConfig c).acted actions).Owned := (Owned.ofConfig c).acted actions
  have leads := leads_by_type c keeps
  have turned := turns_of_turned c keeps (l := d.link source type target)
  generalize (ofConfig c).acted actions = p at owned leads turned ⊢
  have back : ∀ v q, p.requestEdge (.connect source type target d) = (some v, q) → ∀ edits,
      (q.editEdge v edits).requestEdge (.connect target type source d.opposite) = (some v, q.editEdge v edits) := by
    intro v q answered edits
    obtain ⟨linked, known⟩ := owned.linked_of_connect answered
    refine requestEdge_of_linked ?_ ?_
    · rwa [d.link_opposite]
    · rwa [editEdge, SortedMap.contains_modify]
  rw [d.orient_some source type target]
  -- the request finds the edge of the link, or it adds an edge whose ends are still those of the link
  cases stands : p.standing? (.connect source type target d) with
  | some v =>
    obtain ⟨linked, -⟩ := Option.filter_eq_some_iff.mp stands
    obtain ⟨x, found, sameType, object⟩ := leads _ v linked
    have answered := requestEdge_of_standing stands
    cases x with
    | create e =>
      exact ⟨v, e, p, answered, found, sameType, Option.some_inj.mp object, ends_iff_not_turned linked found,
        back v p answered, turned⟩
    | _ => cases object
  | none =>
    obtain ⟨x, answered, adds⟩ := owned.adds stands fun w same => by cases same
    obtain ⟨_, intent⟩ := adds.intent
    cases intent
    have answered : p.requestEdge (.connect source type target d) = (some p.supply.take.1, _) := Prod.ext answered rfl
    have straight : ¬p.Turned (d.link source type target) := by
      rintro ⟨w, x, linked, found, -⟩
      have known : p.edges.contains w = true := SortedMap.contains_iff.mpr ⟨x, found⟩
      have again := requestEdge_of_linked linked known
      rw [answered, Prod.mk.injEq, Option.some_inj] at again
      rw [← again.1, adds.absent owned] at found
      cases found
    have found := SortedMap.get?_insert_self p.edges p.supply.take.1
      (.create { type, source := some source, target := some target, direction := d })
    rw [← adds.edges] at found
    refine ⟨_, _, _, answered, found, rfl, rfl, ?_, back _ _ answered, turned⟩
    exact iff_of_true (d.orient_some source type target) straight

def relinked : List Action :=
  [.call (.node (.stored ⟨1⟩ ⟨10⟩) []), .call (.node (.stored ⟨2⟩ ⟨20⟩) []),
    .call (.edge (.connect ⟨0⟩ "T" ⟨1⟩ .outgoing) [.orient .incoming]), .call (.release ⟨2⟩),
    .call (.edge (.new "T") [.relate ⟨1⟩ ⟨0⟩])]

theorem relinked_straight : ∃ v e q,
    ((ofConfig .default).acted relinked).requestEdge (.connect ⟨0⟩ "T" ⟨1⟩ .outgoing) = (some v, q) ∧
      q.edges.get? v = some (.create e) ∧ e.ends = (some ⟨0⟩, some ⟨1⟩) := by
  have keeps : ∀ a ∈ relinked, a.KeepsIndexes := by
    intro a member
    simp only [relinked, List.mem_cons, List.not_mem_nil, or_false] at member
    rcases member with rfl | rfl | rfl | rfl | rfl <;> trivial
  have straight : ¬((ofConfig .default).acted relinked).Turned ⟨⟨0⟩, "T", ⟨1⟩⟩ := by
    intro turned
    obtain ⟨v, x, linked, -⟩ := turned
    cases linked
  obtain ⟨v, e, q, answered, found, -, -, ends, -⟩ :=
    connect_answers_unless_turned .default keeps ⟨0⟩ "T" ⟨1⟩ .outgoing
  exact ⟨v, e, q, answered, found, ends.mpr straight⟩

def turnedRound : List Action :=
  [.call (.node (.stored ⟨1⟩ ⟨10⟩) []), .call (.node (.stored ⟨2⟩ ⟨20⟩) []),
    .call (.edge (.connect ⟨0⟩ "T" ⟨1⟩ .outgoing) [.orient .incoming])]

theorem turnedRound_answered : ∃ v e q,
    ((ofConfig .default).acted turnedRound).requestEdge (.connect ⟨0⟩ "T" ⟨1⟩ .outgoing) = (some v, q) ∧
      q.edges.get? v = some (.create e) ∧ e.ends = (some ⟨1⟩, some ⟨0⟩) :=
  ⟨_, _, _, rfl, rfl, rfl⟩

end Plan

end GraphWrites
