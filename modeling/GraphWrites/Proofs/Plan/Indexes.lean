import GraphWrites.Proofs.Plan.Handshake

namespace GraphWrites

def EdgeIntent.object? : EdgeIntent → Option (Option Entity)
  | create e => some e.entity
  | patch _ | delete _ | pair _ => none

theorem EdgeIntent.object?_editAll (e : EdgeIntent) (edits : List EdgeEdit) : (e.editAll edits).object? = e.object? :=
  editAll_keeps (fun e edit => by cases e <;> cases edit <;> rfl) e edits

namespace Journal

theorem get?_visited_foldl_forgetEdge (vs : List Variable) (j : Journal) (e : Entity) (v : Variable) :
    (vs.foldl forgetEdge j).visited.get? e = some v ↔ j.visited.get? e = some v ∧ v ∉ vs := by
  induction vs generalizing j with
  | nil => simp
  | cons w vs ih =>
    rw [List.foldl_cons, ih, forgetEdge, forgetVisits, SortedMap.get?_filter, Option.filter_eq_some_iff, List.mem_cons,
      not_or, bne_iff_ne, and_assoc]
    rfl

theorem get?_links_foldl_forgetEdge (vs : List Variable) (j : Journal) (l : Link) (v : Variable) :
    (vs.foldl forgetEdge j).links.get? l = some v ↔ j.links.get? l = some v ∧ v ∉ vs := by
  induction vs generalizing j with
  | nil => simp
  | cons w vs ih =>
    rw [List.foldl_cons, ih, List.mem_cons, not_or]
    change (j.links.filter fun _ u => u != w).get? l = some v ∧ _ ↔ _
    rw [SortedMap.get?_filter, Option.filter_eq_some_iff, bne_iff_ne, and_assoc]

theorem get?_visited_forgetVisits (j : Journal) (v : Variable) (e : Entity) (w : Variable) :
    (j.forgetVisits v).visited.get? e = some w ↔ j.visited.get? e = some w ∧ w ≠ v := by
  rw [forgetVisits, SortedMap.get?_filter, Option.filter_eq_some_iff, bne_iff_ne]

theorem visited_of_visit {j : Journal} {e f : Entity} {v w : Variable} (found : (j.visit e v).visited.get? f = some w) :
    w = v ∨ j.visited.get? f = some w := by
  rw [visit, SortedMap.get?_insert] at found
  split at found
  · exact .inl (Option.some_inj.mp found).symm
  · exact .inr found

end Journal

namespace Plan

def Stands (p : Plan) (v : Variable) : Prop := p.nodes.contains v = true ∨ p.edges.contains v = true

/-- A new edge that is no object stands under the variable. -/
def Joins (p : Plan) (v : Variable) : Prop := (p.edges.get? v).bind EdgeIntent.object? = some none

theorem joins_iff {p : Plan} {v : Variable} :
    p.Joins v ↔ ∃ n, p.edges.get? v = some (.create n) ∧ n.entity = none :=
  SortedMap.bind_get?_eq_some_iff fun x => by cases x <;> simp [EdgeIntent.object?]

theorem patchesEdge_iff {p : Plan} {v : Variable} {e : EdgeId} : (p.edges.get? v).bind EdgeIntent.stored? = some e ↔
    ∃ s, p.edges.get? v = some (.patch s) ∧ s.edge = e :=
  SortedMap.bind_get?_eq_some_iff fun x => by cases x <;> simp [EdgeIntent.stored?]

structure Reached (p : Plan) : Prop where
  visited : ∀ e v, p.journal.visited.get? e = some v → p.Stands v
  links : ∀ l v, p.journal.links.get? l = some v → p.Joins v

namespace Reached

variable {p q : Plan}

theorem insertNode (reached : p.Reached) {v : Variable} {n : NodeIntent} (nodes : q.nodes = p.nodes.insert v n)
    (edges : q.edges = p.edges)
    (visited : ∀ e w, q.journal.visited.get? e = some w → w = v ∨ p.journal.visited.get? e = some w)
    (links : q.journal.links = p.journal.links) : q.Reached := by
  refine ⟨fun e w found => ?_, fun l w found => ?_⟩
  · rw [Stands, nodes, edges, SortedMap.contains_insert]
    rcases visited e w found with here | old
    · simp [here]
    · rcases reached.visited e w old with node | edge
      · simp [node]
      · exact .inr edge
  · rw [Joins, edges]
    exact reached.links l w (links ▸ found)

theorem insertEdge (reached : p.Reached) {v : Variable} (free : p.Free v) {x : EdgeIntent} (nodes : q.nodes = p.nodes)
    (edges : q.edges = p.edges.insert v x)
    (visited : ∀ e w, q.journal.visited.get? e = some w → w = v ∨ p.journal.visited.get? e = some w)
    (links : ∀ l w, q.journal.links.get? l = some w → q.Joins w ∨ p.journal.links.get? l = some w) : q.Reached := by
  refine ⟨fun e w found => ?_, fun l w found => ?_⟩
  · rw [Stands, nodes, edges, SortedMap.contains_insert]
    rcases visited e w found with here | old
    · simp [here]
    · rcases reached.visited e w old with node | edge
      · exact .inl node
      · simp [edge]
  · rcases links l w found with here | old
    · exact here
    · have joins := reached.links l w old
      have other : w ≠ v := by
        rintro rfl
        rw [Joins, free.edges] at joins
        cases joins
      rw [Joins, edges, SortedMap.get?_insert_of_ne _ _ other]
      exact joins

theorem editEdge (reached : p.Reached) (v : Variable) (edits : List EdgeEdit) : (p.editEdge v edits).Reached := by
  refine ⟨fun e w found => ?_, fun l w found => ?_⟩
  · rw [Stands, Plan.editEdge, SortedMap.contains_modify]
    exact reached.visited e w found
  · have kept := SortedMap.bind_get?_modify (fun x => EdgeIntent.object?_editAll x edits) p.edges v w
    rw [Joins, Plan.editEdge, kept]
    exact reached.links l w found

theorem editNode (reached : p.Reached) (v : Variable) (edits : List NodeEdit) : (p.editNode v edits).Reached := by
  refine ⟨fun e w found => ?_, reached.links⟩
  rw [Stands, Plan.editNode, SortedMap.contains_modify]
  exact reached.visited e w found

theorem release (reached : p.Reached) {v : Variable} {x : EdgeIntent} (nodes : q.nodes = p.nodes)
    (edges : q.edges = p.edges.erase v) (journal : q.journal = (x.owned v).foldl Journal.forgetEdge p.journal) :
    q.Reached := by
  have other : ∀ {w}, w ∉ x.owned v → w ≠ v := fun apart same => apart (same ▸ x.mem_owned_self v)
  refine ⟨fun e w found => ?_, fun l w found => ?_⟩
  · rw [journal, Journal.get?_visited_foldl_forgetEdge] at found
    rw [Stands, nodes, edges, SortedMap.contains_erase, decide_eq_true (other found.2), Bool.true_and]
    exact reached.visited e w found.1
  · rw [journal, Journal.get?_links_foldl_forgetEdge] at found
    rw [Joins, edges, SortedMap.get?_erase_of_ne _ (other found.2)]
    exact reached.links l w found.1

theorem unmap (reached : p.Reached) {v : Variable} (nodes : q.nodes = p.nodes.erase v) (edges : q.edges = p.edges)
    (journal : q.journal = p.journal.forgetVisits v) : q.Reached := by
  refine ⟨fun e w found => ?_, fun l w found => ?_⟩
  · rw [journal, Journal.get?_visited_forgetVisits] at found
    rw [Stands, nodes, edges, SortedMap.contains_erase, decide_eq_true found.2, Bool.true_and]
    exact reached.visited e w found.1
  · rw [journal] at found
    rw [Joins, edges]
    exact reached.links l w found

theorem change {named : Subject → Prop} (changed : Change named p q) (reached : p.Reached) : q.Reached := by
  have unlinked : ∀ (l : Link) w, p.journal.links.get? l = some w → q.Joins w ∨ p.journal.links.get? l = some w :=
    fun _ _ => .inr
  cases changed with
  | createNode => exact reached.insertNode rfl rfl (fun _ _ => Journal.visited_of_visit) rfl
  | storeNode => exact reached.insertNode rfl rfl (fun _ _ => Journal.visited_of_visit) rfl
  | revisitNode e v _ _ known =>
    refine ⟨fun f w found => ?_, reached.links⟩
    rcases Journal.visited_of_visit found with rfl | old
    · exact .inl known
    · exact reached.visited f w old
  | editNode v edits => exact reached.editNode v edits
  | newEdge free => exact reached.insertEdge free rfl rfl (fun _ _ => .inr) unlinked
  | linkEdge free link type source target d supply =>
    refine reached.insertEdge free rfl rfl (fun _ _ => .inr) fun l w found => ?_
    dsimp only at found
    rw [Journal.addLink, SortedMap.get?_insert] at found
    split at found
    · cases found
      refine .inl ?_
      rw [Joins, SortedMap.get?_insert_self]
      rfl
    · exact .inr found
  | objectEdge free => exact reached.insertEdge free rfl rfl (fun _ _ => Journal.visited_of_visit) unlinked
  | pairEdge free => exact reached.insertEdge free rfl rfl (fun _ _ => .inr) unlinked
  | patchEdge free => exact reached.insertEdge free rfl rfl (fun _ _ => .inr) unlinked
  | deleteEdge free => exact reached.insertEdge free rfl rfl (fun _ _ => .inr) unlinked
  | editEdge v edits => exact reached.editEdge v edits
  | release => exact reached.release rfl rfl rfl
  | unmap => exact reached.unmap rfl rfl rfl
  | compile =>
    refine ⟨fun e v found => ?_, fun l v found => ?_⟩
    · cases found
    · cases found

end Reached

end Plan

def JournalCall.KeepsIndexes : JournalCall → Prop
  | visit _ _ | addLink _ _ | addCreated _ _ | takeStatements => False
  | _ => True

theorem Journal.kept_of_call {j k : Journal} {c : JournalCall} {a : JournalAnswer} (keeps : c.KeepsIndexes)
    (called : j.call c = .ok (a, k)) : k.visited = j.visited ∧ k.created = j.created ∧
      ∀ l v, k.links.get? l = some v → j.links.get? l = some v := by
  have stays : c ≠ .takeStatements := by
    rintro rfl
    cases keeps
  obtain ⟨visited, created, links⟩ := indexes_of_call stays called
  refine ⟨?_, ?_, fun l v found => ?_⟩
  · rcases visited with kept | ⟨e, v, rfl⟩
    · exact kept
    · cases keeps
  · rcases created with kept | ⟨v, e, rfl⟩
    · exact kept
    · cases keeps
  · rcases links l v found with kept | rfl
    · exact kept
    · cases keeps

namespace Plan

def Action.KeepsIndexes : Action → Prop
  | .call (.journal c) => c.KeepsIndexes
  | .call _ => True
  | .replaceJournal _ => False

theorem Action.KeepsIndexes.keepsLog {a : Action} (keeps : a.KeepsIndexes) : a.KeepsLog := by
  cases a with
  | replaceJournal j => cases keeps
  | call c =>
    cases c with
    | journal c => cases c <;> first | exact keeps | exact True.intro
    | _ => exact True.intro

theorem Reached.acted (c : Config) {actions : List Action} (keeps : ∀ a ∈ actions, a.KeepsIndexes) :
    ((Plan.ofConfig c).acted actions).Reached := by
  refine (Owned.ofConfig c).acted_keeps (fun _ _ _ _ => True.intro) (fun _ _ => Reached.change)
    (fun p a member alone reached => ?_) ⟨fun e v found => ?_, fun l v found => ?_⟩
  · have kept := keeps a member
    rw [act_eq_of_onJournal p alone]
    rcases p.journal_act_cases alone with ⟨j, rfl⟩ | ⟨c, rfl, untouched | ⟨answer, called⟩⟩
    · cases kept
    · rw [untouched]
      exact reached
    · obtain ⟨visited, -, links⟩ := Journal.kept_of_call kept called
      exact ⟨fun e v found => reached.visited e v (visited ▸ found), fun l v found => reached.links l v (links l v found)⟩
  · cases found
  · cases found

/-- Each index leads to intents that stand. -/
structure Tracked (p : Plan) : Prop where
  visited : ∀ e v, p.journal.visited.get? e = some v → (∃ n, p.nodes.get? v = some n) ∨ ∃ x, p.edges.get? v = some x
  created : ∀ v e, p.journal.created.get? v = some e ↔ (∃ n, p.nodes.get? v = some (.create n) ∧ n.entity = e) ∨
    ∃ n, p.edges.get? v = some (.create n) ∧ n.entity = some e
  links : ∀ l v, p.journal.links.get? l = some v → ∃ n, p.edges.get? v = some (.create n) ∧ n.entity = none
  stored : ∀ r v, p.storedEdges.get? r = some v ↔ ∃ s, p.edges.get? v = some (.patch s) ∧ s.edge = r

/-- Some index says something of the variable. -/
def Traced (p : Plan) (v : Variable) : Prop :=
  (∃ e, p.journal.visited.get? e = some v) ∨ (∃ e, p.journal.created.get? v = some e) ∨
    (∃ l, p.journal.links.get? l = some v) ∨ ∃ r, p.storedEdges.get? r = some v

theorem Tracked.stands {p : Plan} (tracked : p.Tracked) {v : Variable} (traced : p.Traced v) :
    (∃ n, p.nodes.get? v = some n) ∨ ∃ x, p.edges.get? v = some x := by
  rcases traced with ⟨e, visited⟩ | ⟨e, created⟩ | ⟨l, linked⟩ | ⟨r, stored⟩
  · exact tracked.visited e v visited
  · rcases (tracked.created v e).mp created with ⟨n, found, -⟩ | ⟨n, found, -⟩
    · exact .inl ⟨_, found⟩
    · exact .inr ⟨_, found⟩
  · obtain ⟨n, found, -⟩ := tracked.links l v linked
    exact .inr ⟨_, found⟩
  · obtain ⟨s, found, -⟩ := (tracked.stored r v).mp stored
    exact .inr ⟨_, found⟩

theorem Tracked.outstanding {p : Plan} (tracked : p.Tracked) (owned : p.Owned) {v : Variable} (traced : p.Traced v) :
    p.supply.isOutstanding v = true := by
  refine (owned.outstanding v).mpr ?_
  rcases tracked.stands traced with ⟨n, found⟩ | ⟨x, found⟩
  · exact ⟨_, holds_node_self found⟩
  · exact ⟨_, holds_edge_self found⟩

/-- However intents come and go, the indexes lead to those that stand, and nothing is noted of a variable that has been
given back or was never taken. -/
theorem indexes_end_with_intents (c : Config) {actions : List Action} (keeps : ∀ a ∈ actions, a.KeepsIndexes) :
    ((ofConfig c).acted actions).Tracked ∧
      ∀ v, ((ofConfig c).acted actions).supply.isOutstanding v = false → ¬((ofConfig c).acted actions).Traced v := by
  have owned : ((ofConfig c).acted actions).Owned := (Owned.ofConfig c).acted actions
  have logged := Logged.acted c fun a member => (keeps a member).keepsLog
  have reached := Reached.acted c keeps
  have indexed := Indexed.acted c actions
  generalize (ofConfig c).acted actions = p at owned logged reached indexed
  have tracked : p.Tracked := by
    refine ⟨fun e v found => ?_, fun v e => ?_, fun l v found => joins_iff.mp (reached.links l v found), fun r v => ?_⟩
    · exact (reached.visited e v found).imp SortedMap.contains_iff.mp SortedMap.contains_iff.mp
    · rw [logged v, creates?_eq_some_iff owned]
    · rw [indexed r v, patchesEdge_iff]
  refine ⟨tracked, fun v idle traced => ?_⟩
  rw [tracked.outstanding owned traced] at idle
  cases idle

def takenOver : List Action :=
  [.call (.node (.new ⟨1⟩) []), .call (.node (.stored ⟨2⟩ ⟨20⟩) []), .call (.node (.stored ⟨3⟩ ⟨30⟩) []),
    .call (.edge (.connect ⟨0⟩ "T" ⟨1⟩ .outgoing) []), .call (.edge (.stored ⟨7⟩ "U") []),
    .call (.edge (.connect ⟨2⟩ "T" ⟨1⟩ .outgoing) []), .call (.release ⟨3⟩), .call (.release ⟨4⟩),
    .call (.unrelate ⟨"T", ⟨30⟩, ⟨20⟩⟩ none), .call (.unmap ⟨1⟩), .call (.node (.new ⟨4⟩) []),
    .call (.edge (.object ⟨5⟩ "V") []), .call (.edge (.pair "W") [.relate ⟨0⟩ ⟨1⟩]), .call (.release ⟨3⟩)]

theorem takenOver_tracked : ((ofConfig .default).acted takenOver).Tracked ∧
    ((ofConfig .default).acted takenOver).owned = [⟨4⟩, ⟨5⟩, ⟨0⟩, ⟨1⟩, ⟨2⟩] ∧
      ((ofConfig .default).acted takenOver).journal.visited.get? ⟨4⟩ = some ⟨1⟩ ∧
      ((ofConfig .default).acted takenOver).journal.created.get? ⟨1⟩ = some ⟨4⟩ ∧
      ¬((ofConfig .default).acted takenOver).Traced ⟨3⟩ := by
  have keeps : ∀ a ∈ takenOver, a.KeepsIndexes := by
    intro a member
    simp only [takenOver, List.mem_cons, List.not_mem_nil, or_false] at member
    rcases member with rfl | rfl | rfl | rfl | rfl | rfl | rfl | rfl | rfl | rfl | rfl | rfl | rfl | rfl <;> trivial
  obtain ⟨tracked, untraced⟩ := indexes_end_with_intents .default keeps
  exact ⟨tracked, by decide +kernel, by decide +kernel, by decide +kernel, untraced ⟨3⟩ (by decide +kernel)⟩

end Plan

end GraphWrites
