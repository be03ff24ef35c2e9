import GraphWrites.Proofs.Plan.Rendering
import GraphWrites.Proofs.Plan.Run
import GraphWrites.Proofs.Query.Rows

namespace GraphWrites

/-- The first id that some deletions give for a triple. -/
def knownId (ds : List DeletedEdge) (t : Triple) : Option EdgeId :=
  ds.findSome? fun d => if d.triple = t then d.edge else none

theorem knownId_cons (d : DeletedEdge) (ds : List DeletedEdge) (t : Triple) :
    knownId (d :: ds) t = (if d.triple = t then d.edge else none).or (knownId ds t) := by
  unfold knownId
  rw [List.findSome?_cons]
  cases (if d.triple = t then d.edge else none) <;> rfl

theorem knownId_ne_none {ds : List DeletedEdge} {d : DeletedEdge} {id : EdgeId} (member : d ∈ ds)
    (known : d.edge = some id) : knownId ds d.triple ≠ none := by
  intro none
  have unknown := List.findSome?_eq_none_iff.mp none d member
  rw [if_pos rfl, known] at unknown
  cases unknown

namespace Rendering

def deleteRows (r : Rendering) : List (Option DeleteRow) := r.queries.flatMap Query.deleteRows

/-- A stored edge is deleted by its id or as any edge between its ends. -/
def Deletes (r : Rendering) (t : Triple) (id : EdgeId) : Prop :=
  some (.byId t.type id) ∈ r.deleteRows ∨ some (.between t) ∈ r.deleteRows

theorem between_mem_deleteRows {r : Rendering} {t : Triple} : some (.between t) ∈ r.deleteRows ↔
    ∃ rows, .deleteBetween t.type rows ∈ r.queries ∧ (t.source, t.target) ∈ rows := by
  obtain ⟨type, source, target⟩ := t
  rw [deleteRows, List.mem_flatMap]
  apply Iff.intro
  · intro h
    obtain ⟨q, member, row⟩ := h
    cases q with
    | deleteBetween type' rows =>
      rw [Query.deleteRows_between] at row
      obtain ⟨ends, inside, same⟩ := List.mem_map.mp row
      cases same
      exact ⟨rows, member, inside⟩
    | deleteById type' rows => simp [Query.deleteRows_byId] at row
    | _ => cases row
  · intro h
    obtain ⟨rows, member, inside⟩ := h
    exact ⟨_, member, Query.deleteRows_between .. ▸ List.mem_map.mpr ⟨_, inside, rfl⟩⟩

theorem byId_mem_deleteRows {r : Rendering} {type : String} {id : EdgeId} :
    some (.byId type id) ∈ r.deleteRows ↔ ∃ rows, .deleteById type rows ∈ r.queries ∧ id ∈ rows := by
  rw [deleteRows, List.mem_flatMap]
  apply Iff.intro
  · intro h
    obtain ⟨q, member, row⟩ := h
    cases q with
    | deleteBetween type' rows => simp [Query.deleteRows_between] at row
    | deleteById type' rows =>
      rw [Query.deleteRows_byId] at row
      obtain ⟨_, inside, same⟩ := List.mem_map.mp row
      cases same
      exact ⟨rows, member, inside⟩
    | _ => cases row
  · intro h
    obtain ⟨rows, member, inside⟩ := h
    exact ⟨_, member, Query.deleteRows_byId .. ▸ List.mem_map.mpr ⟨_, inside, rfl⟩⟩

end Rendering

namespace Plan

theorem get?_foldl_addDeletion (ds : List DeletedEdge) (m : SortedMap Triple (Option EdgeId)) (t : Triple) :
    (ds.foldl addDeletion m).get? t =
      if t ∈ ds.map DeletedEdge.triple ∨ m.contains t = true then some (((m.get? t).getD none).or (knownId ds t))
      else none := by
  induction ds generalizing m with
  | nil =>
    cases found : m.get? t <;> simp [SortedMap.contains, found, knownId]
  | cons d ds ih =>
    rw [List.foldl_cons, ih, knownId_cons, addDeletion, SortedMap.contains_insert, SortedMap.get?_insert]
    by_cases here : t = d.triple
    · subst here
      simp [Option.or_assoc]
    · have other : ¬d.triple = t := fun same => here same.symm
      simp [here, other]

theorem get?_deletionsByTriple (ds : List DeletedEdge) (t : Triple) :
    (deletionsByTriple ds).get? t = if t ∈ ds.map DeletedEdge.triple then some (knownId ds t) else none := by
  rw [deletionsByTriple, get?_foldl_addDeletion]
  simp

theorem deletedById_iff (ds : List DeletedEdge) (type : String) (id : EdgeId) :
    (∃ rows, .deleteById type rows ∈ deletions ds ∧ id ∈ rows) ↔
      ∃ t, t.type = type ∧ (deletionsByTriple ds).get? t = some (some id) := by
  simp only [deletions, List.mem_flatMap, Prod.exists, mem_groupByKey, mem_deletionsOfType]
  apply Iff.intro
  · intro h
    obtain ⟨rows, ⟨k, group, ⟨-, rfl⟩, ⟨_, ⟨⟩, -⟩ | ⟨_, ⟨⟩, -, rfl⟩⟩, inside⟩ := h
    obtain ⟨⟨t, e⟩, entry, rfl⟩ := List.mem_filterMap.mp inside
    obtain ⟨entry, same⟩ := List.mem_filter.mp entry
    exact ⟨t, by simpa using same, SortedMap.get?_eq_some_iff.mpr entry⟩
  · intro h
    obtain ⟨t, rfl, found⟩ := h
    have entry : (t, some id) ∈ (deletionsByTriple ds).entries.filter fun d => d.1.type == t.type :=
      List.mem_filter.mpr ⟨SortedMap.get?_eq_some_iff.mp found, by simp⟩
    have inside : id ∈ ((deletionsByTriple ds).entries.filter fun d => d.1.type == t.type).filterMap Prod.snd :=
      List.mem_filterMap.mpr ⟨_, entry, rfl⟩
    exact ⟨_, ⟨t.type, _, ⟨⟨t, _, SortedMap.get?_eq_some_iff.mp found, rfl⟩, rfl⟩,
      .inr ⟨_, rfl, List.ne_nil_of_mem inside, rfl⟩⟩, inside⟩

theorem deletedBetween_iff (ds : List DeletedEdge) (t : Triple) :
    (∃ rows, .deleteBetween t.type rows ∈ deletions ds ∧ (t.source, t.target) ∈ rows) ↔
      (deletionsByTriple ds).get? t = some none := by
  simp only [deletions, List.mem_flatMap, Prod.exists, mem_groupByKey, mem_deletionsOfType]
  apply Iff.intro
  · intro h
    obtain ⟨rows, ⟨k, group, ⟨-, rfl⟩, ⟨_, ⟨⟩, -, rfl⟩ | ⟨_, ⟨⟩, -⟩⟩, inside⟩ := h
    obtain ⟨⟨u, e⟩, entry, row⟩ := List.mem_filterMap.mp inside
    obtain ⟨entry, same⟩ := List.mem_filter.mp entry
    have type : u.type = t.type := by simpa using same
    cases e with
    | some id => cases row
    | none =>
      have ends : u.source = t.source ∧ u.target = t.target := by simpa using row
      have here : u = t := by
        cases u; cases t
        simp_all
      exact here ▸ SortedMap.get?_eq_some_iff.mpr entry
  · intro found
    have entry : (t, none) ∈ (deletionsByTriple ds).entries.filter fun d => d.1.type == t.type :=
      List.mem_filter.mpr ⟨SortedMap.get?_eq_some_iff.mp found, by simp⟩
    have inside : (t.source, t.target) ∈ ((deletionsByTriple ds).entries.filter fun d => d.1.type == t.type).filterMap
        fun d => if d.2.isNone then some (d.1.source, d.1.target) else none :=
      List.mem_filterMap.mpr ⟨_, entry, rfl⟩
    exact ⟨_, ⟨t.type, _, ⟨⟨t, _, SortedMap.get?_eq_some_iff.mp found, rfl⟩, rfl⟩,
      .inl ⟨_, rfl, List.ne_nil_of_mem inside, rfl⟩⟩, inside⟩

/-- The deletions a plan has to carry out: those of its intents that no new edge supersedes, by variable, and
behind them the removals of the ledger whose edges are not created again. -/
def requestedDeletions (p : Plan) : List DeletedEdge :=
  (p.edges.values.filter fun e => !p.isSuperseded e).filterMap deletion? ++ p.removals.map fun r => ⟨r.triple, r.id⟩

theorem writtenDeletions_eq {p : Plan} {skipped : SortedSet Variable} (skips : p.skipped = .ok skipped) :
    p.writtenDeletions skipped = p.requestedDeletions := by
  have intents : (p.writtenEdges skipped).values.filterMap deletion? =
      (p.edges.values.filter fun e => !p.isSuperseded e).filterMap deletion? := by
    simp only [writtenEdges, SortedMap.values, SortedMap.filter, List.filterMap_map, List.filter_map,
      List.filterMap_filter, Function.comp_def]
    refine List.filterMap_congr fun entry member => ?_
    obtain ⟨v, e⟩ := entry
    cases deletes : deletion? e with
    | none => simp
    | some d =>
      have kept : skipped.contains v = false := by
        rw [Bool.eq_false_iff]
        intro left
        have unresolved := (contains_skipped_iff skips (SortedMap.get?_eq_some_iff.mpr member)).mp left
        cases e with
        | delete d => exact unresolved rfl
        | create c => cases deletes
        | patch c => cases deletes
        | pair c => cases deletes
      simp [kept]
  rw [writtenDeletions, intents]
  rfl

theorem mem_singly_of_deletion {p : Plan} {skipped : SortedSet Variable} {q : Query}
    (deletes : (∃ type rows, q = .deleteById type rows) ∨ ∃ type rows, q = .deleteBetween type rows) :
    q ∈ (p.singly skipped).queries ↔ q ∈ deletions (p.writtenDeletions skipped) := by
  rw [mem_queries_singly]
  have script : (p.draft skipped).script? ≠ some q := by
    intro written
    obtain ⟨-, rfl⟩ := Draft.script?_eq_some_iff.mp written
    rcases deletes with ⟨_, _, same⟩ | ⟨_, _, same⟩ <;> cases same
  have patched : q ∉ patches (p.writtenEdges skipped).values := by
    intro member
    obtain ⟨_, _, rfl⟩ := of_mem_patches member
    rcases deletes with ⟨_, _, same⟩ | ⟨_, _, same⟩ <;> cases same
  rw [or_iff_right script, or_iff_right patched]

/-- A known edge that is to be deleted is deleted exactly if its id is the first known one among the requested
deletions of some triple of its type. -/
theorem deletes_iff_first_known {p : Plan} {skipped : SortedSet Variable} {r : Rendering}
    (skips : p.skipped = .ok skipped) (rendered : p.renderSingly skipped = .ok r) {d : DeletedEdge} {id : EdgeId}
    (requested : d ∈ p.requestedDeletions) (known : d.edge = some id) :
    r.Deletes d.triple id ↔ ∃ t, t.type = d.triple.type ∧ knownId p.requestedDeletions t = some id := by
  obtain rfl := eq_of_renderSingly rendered
  have byId := deletedById_iff p.requestedDeletions d.triple.type id
  have between := deletedBetween_iff p.requestedDeletions d.triple
  rw [Rendering.Deletes, Rendering.byId_mem_deleteRows, Rendering.between_mem_deleteRows]
  simp only [mem_singly_of_deletion (.inl ⟨_, _, rfl⟩), mem_singly_of_deletion (.inr ⟨_, _, rfl⟩),
    writtenDeletions_eq skips, byId, between, get?_deletionsByTriple]
  -- the triple has a known id, so that its edges are not deleted by their ends
  have named : d.triple ∈ p.requestedDeletions.map DeletedEdge.triple := List.mem_map_of_mem requested
  rw [if_pos named, Option.some_inj, or_iff_left (knownId_ne_none requested known)]
  refine exists_congr fun t => and_congr_right fun _ => ?_
  split
  · rw [Option.some_inj]
  · rename_i unnamed
    apply Iff.intro
    · intro none
      cases none
    · intro first
      obtain ⟨x, member, found⟩ := List.exists_of_findSome?_eq_some first
      split at found
      · rename_i here
        exact absurd (here ▸ List.mem_map_of_mem member) unnamed
      · cases found

def parallelDeletions : Plan := (ofConfig .default).after
  [.unrelate ⟨"T", ⟨1⟩, ⟨2⟩⟩ (some ⟨7⟩), .unrelate ⟨"T", ⟨1⟩, ⟨2⟩⟩ (some ⟨8⟩)]

theorem parallelDeletions_first : ∃ skipped r, parallelDeletions.skipped = .ok skipped ∧
    parallelDeletions.renderSingly skipped = .ok r ∧
    (⟨⟨"T", ⟨1⟩, ⟨2⟩⟩, some ⟨7⟩⟩ : DeletedEdge) ∈ parallelDeletions.requestedDeletions ∧
    r.Deletes ⟨"T", ⟨1⟩, ⟨2⟩⟩ ⟨7⟩ := by
  have skips : parallelDeletions.skipped = .ok ∅ := by rfl
  obtain ⟨r, rendered⟩ : ∃ r, parallelDeletions.renderSingly ∅ = .ok r := ⟨_, rfl⟩
  have requested : (⟨⟨"T", ⟨1⟩, ⟨2⟩⟩, some ⟨7⟩⟩ : DeletedEdge) ∈ parallelDeletions.requestedDeletions := by decide
  have first : knownId parallelDeletions.requestedDeletions ⟨"T", ⟨1⟩, ⟨2⟩⟩ = some ⟨7⟩ := by decide
  exact ⟨∅, r, skips, rendered, requested, (deletes_iff_first_known skips rendered requested rfl).mpr ⟨_, rfl, first⟩⟩

theorem parallelDeletions_second : parallelDeletions.Reachable ∧ ∃ r, parallelDeletions.render = .ok r ∧
    (⟨⟨"T", ⟨1⟩, ⟨2⟩⟩, some ⟨8⟩⟩ : DeletedEdge) ∈ parallelDeletions.requestedDeletions ∧
    ¬r.Deletes ⟨"T", ⟨1⟩, ⟨2⟩⟩ ⟨8⟩ := by
  refine ⟨⟨_, _, rfl⟩, _, rfl, by decide, ?_⟩
  have queries : (parallelDeletions.singly ∅).queries = [.deleteById "T" [⟨7⟩]] := by rfl
  have rows : (parallelDeletions.singly ∅).deleteRows = [some (.byId "T" ⟨7⟩)] := by
    rw [Rendering.deleteRows, queries, List.flatMap_singleton, Query.deleteRows_byId]
    rfl
  change ¬(parallelDeletions.singly ∅).Deletes ⟨"T", ⟨1⟩, ⟨2⟩⟩ ⟨8⟩
  rw [Rendering.Deletes, rows]
  decide

end Plan

end GraphWrites
