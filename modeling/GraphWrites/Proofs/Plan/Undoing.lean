import GraphWrites.Proofs.Plan.Marks

namespace GraphWrites

/-- The stored edge that the request marks as visited. -/
def EdgeRequest.marked? : EdgeRequest → Option EdgeId
  | stored e _ => some e
  | new _ | connect _ _ _ _ | object _ _ | pair _ | under _ => none

def EdgeRequest.marks (request : EdgeRequest) (seen : SortedSet EdgeId) : SortedSet EdgeId :=
  request.marked?.elim seen seen.insert

namespace Journal

structure Unnoted (j : Journal) (v : Variable) : Prop where
  visited : ∀ e, j.visited.get? e ≠ some v
  links : ∀ l, j.links.get? l ≠ some v
  created : j.created.get? v = none

variable {j : Journal} {v : Variable}

theorem forgetEdge_of_unnoted (unnoted : j.Unnoted v) : j.forgetEdge v = j := by
  have visited := SortedMap.filter_ne_of_unused unnoted.visited
  have links := SortedMap.filter_ne_of_unused unnoted.links
  have created := SortedMap.erase_of_absent unnoted.created
  rw [forgetEdge, forgetVisits, forgetCreated, forgetLinks, visited, links, created]

theorem foldl_forgetEdge_of_unnoted {vs : List Variable} (unnoted : ∀ v ∈ vs, j.Unnoted v) : vs.foldl forgetEdge j = j := by
  induction vs with
  | nil => rfl
  | cons v vs ih =>
    rw [List.foldl_cons, forgetEdge_of_unnoted (unnoted v List.mem_cons_self)]
    exact ih fun w member => unnoted w (List.mem_cons_of_mem _ member)

theorem forgetEdge_addLink {l : Link} (unnoted : j.Unnoted v) (absent : j.links.get? l = none) :
    (j.addLink l v).forgetEdge v = j := by
  have visited := SortedMap.filter_ne_of_unused unnoted.visited
  have links := SortedMap.filter_ne_insert absent unnoted.links
  have created := SortedMap.erase_of_absent unnoted.created
  rw [addLink, forgetEdge, forgetVisits, forgetCreated, forgetLinks, visited, links, created]

theorem forgetEdge_addCreated {e : Entity} (unnoted : j.Unnoted v) (absent : j.visited.get? e = none) :
    ((j.visit e v).addCreated v e).forgetEdge v = j := by
  have visited := SortedMap.filter_ne_insert absent unnoted.visited
  have links := SortedMap.filter_ne_of_unused unnoted.links
  have created := SortedMap.erase_insert e unnoted.created
  rw [visit, addCreated, forgetEdge, forgetVisits, forgetCreated, forgetLinks, visited, links, created]

end Journal

namespace Plan

variable {p q : Plan} {request : EdgeRequest} {v : Variable} {x : EdgeIntent}

theorem Tracked.unnoted (tracked : p.Tracked) (owned : p.Owned) (free : p.supply.isOutstanding v = false) :
    p.journal.Unnoted v := by
  have untraced : ¬p.Traced v := fun traced => by
    rw [tracked.outstanding owned traced] at free
    cases free
  refine ⟨fun e found => untraced (.inl ⟨e, found⟩), fun l found => untraced (.inr (.inr (.inl ⟨l, found⟩))), ?_⟩
  exact Option.eq_none_iff_forall_ne_some.mpr fun e found => untraced (.inr (.inl ⟨e, found⟩))

theorem get?_eq_none_of_unknown {α : Type} [Ord α] {m : SortedMap α Variable} {k : α}
    (unknown : (m.get? k).filter p.edges.contains = none) (stands : ∀ w, m.get? k = some w → p.edges.contains w = true) :
    m.get? k = none :=
  Option.eq_none_iff_forall_ne_some.mpr fun w found => Option.filter_eq_none_iff.mp unknown w found (stands w found)

theorem Tracked.unlinked (tracked : p.Tracked) {l : Link}
    (unknown : (p.journal.links.get? l).filter p.edges.contains = none) : p.journal.links.get? l = none :=
  get?_eq_none_of_unknown unknown fun w found => by
    obtain ⟨n, here, -⟩ := tracked.links l w found
    exact SortedMap.contains_iff.mpr ⟨_, here⟩

theorem Tracked.unindexed (tracked : p.Tracked) {e : EdgeId}
    (unknown : (p.storedEdges.get? e).filter p.edges.contains = none) : p.storedEdges.get? e = none :=
  get?_eq_none_of_unknown unknown fun w found => by
    obtain ⟨s, here, -⟩ := (tracked.stored e w).mp found
    exact SortedMap.contains_iff.mpr ⟨_, here⟩

namespace Adds

theorem forgotten (adds : p.Adds request v x q) (tracked : p.Tracked) (owned : p.Owned)
    (unvisited : ∀ e type, request = .object e type → p.journal.visited.get? e = none) :
    (x.owned v).foldl Journal.forgetEdge q.journal = p.journal.withMarks (request.marks p.journal.visitedEdges) := by
  have unnoted : ∀ w ∈ x.owned v, p.journal.Unnoted w := fun w member => tracked.unnoted owned (adds.taken.free w member)
  have first := unnoted v (x.mem_owned_self v)
  have unknown := adds.unknown
  obtain ⟨reverse, intent⟩ := adds.intent
  rw [adds.journal]
  cases request with
  | new type =>
    cases intent
    exact Journal.forgetEdge_of_unnoted first
  | connect source type target d =>
    cases intent
    exact Journal.forgetEdge_addLink first (tracked.unlinked unknown)
  | object e type =>
    cases intent
    exact Journal.forgetEdge_addCreated first (unvisited e type rfl)
  | pair type => exact Journal.foldl_forgetEdge_of_unnoted unnoted
  | stored e type =>
    cases intent
    exact Journal.forgetEdge_of_unnoted (j := p.journal.visitEdge e) ⟨first.visited, first.links, first.created⟩
  | under w => cases intent

theorem unindexed (adds : p.Adds request v x q) (tracked : p.Tracked) : x.unindexed q.storedEdges = p.storedEdges := by
  have unknown := adds.unknown
  obtain ⟨reverse, intent⟩ := adds.intent
  rw [adds.behind]
  cases request with
  | stored e type =>
    cases intent
    exact SortedMap.erase_insert v (tracked.unindexed unknown)
  | under w => cases intent
  | _ =>
    cases intent
    rfl

/-- Taken back after any edits, an intent leaves nothing behind but a mark. -/
theorem release (adds : p.Adds request v x q) (tracked : p.Tracked) (owned : p.Owned)
    (unvisited : ∀ e type, request = .object e type → p.journal.visited.get? e = none) (edits : List EdgeEdit) :
    (q.editEdge v edits).release v =
      (true, (p.withMarks (request.marks p.journal.visitedEdges)).withSupply (q.supply.releaseAll (x.owned v))) := by
  have found : (q.editEdge v edits).edges.get? v = some (x.editAll edits) := by
    rw [editEdge, SortedMap.get?_modify, if_pos rfl, adds.edges, SortedMap.get?_insert_self]
    rfl
  have edges : (q.editEdge v edits).edges.erase v = p.edges := by
    rw [editEdge, SortedMap.erase_modify, adds.edges, SortedMap.erase_insert x (adds.absent owned)]
  have journal := adds.forgotten tracked owned unvisited
  have stored := adds.unindexed tracked
  rw [release_eq found, edges, x.owned_editAll, x.unindexed_editAll]
  change (true, { q with
    supply := q.supply.releaseAll (x.owned v)
    journal := (x.owned v).foldl Journal.forgetEdge q.journal
    edges := p.edges
    storedEdges := x.unindexed q.storedEdges }) = _
  rw [journal, stored, adds.behind]
  rfl

end Adds

theorem Pooled.releaseAll (pooled : p.Pooled) {s : Supply} (moves : p.supply.Moves s) (fits : s.live ≤ p.config.poolCapacity)
    {vs : List Variable} (owned : q.Owned) (config : q.config = p.config) (supply : q.supply = s.releaseAll vs) :
    q.Pooled := by
  have room : s.live ≤ p.supply.capacity := by rwa [pooled.capacity]
  refine ⟨owned, ?_, ?_⟩
  · rw [supply]
    exact (moves.roomy pooled.roomy room).releaseAll vs
  · rw [supply, Supply.capacity_releaseAll, moves.capacity, pooled.capacity, config]

theorem Pooled.live_le (pooled : p.Pooled) : p.supply.live ≤ p.config.poolCapacity := by
  have fits := pooled.roomy.fits
  rw [pooled.roomy.fresh_eq, pooled.capacity] at fits
  exact Nat.le_of_add_right_le fits

/-- The plan stands as it did before the request, but for the supply and the mark of a stored edge. Nothing that is done
next shows the difference, unless it asks for that mark or finishes the journal that has it. -/
structure AsBefore (p : Plan) (request : EdgeRequest) (q : Plan) : Prop where
  behind : ∃ supply, q = { p with
    supply, journal := { p.journal with visitedEdges := request.marks p.journal.visitedEdges } }
  statements : q.statements = p.statements
  later : ∀ next, p.FitsPool next →
    (∀ e, request.marked? = some e → Action.call (.journal (.edgeVisited e)) ∉ next) →
    (q.answers next).map (Except.map (PlanAnswer.hide request.marked?)) =
      (p.answers next).map (Except.map (PlanAnswer.hide request.marked?)) ∧
    (q.acted next).isBatchable = (p.acted next).isBatchable
  whole : (∀ next, p.FitsPool next → q.answers next = p.answers next) ↔
    ∀ e, request.marked? = some e → p.journal.visitedEdges.contains e = true

theorem markedAlike_marks (p : Plan) (request : EdgeRequest) :
    p.MarkedAlike request.marked? (p.withMarks (request.marks p.journal.visitedEdges)) := by
  refine ⟨_, rfl, fun e shown => ?_⟩
  unfold EdgeRequest.marks
  cases marked : request.marked? with
  | none => rfl
  | some f =>
    have other : e ≠ f := by
      rintro rfl
      exact shown marked
    rw [Option.elim_some, SortedSet.contains_insert, decide_eq_false other, Bool.false_or]

theorem marks_eq_iff {seen : SortedSet EdgeId} :
    request.marks seen = seen ↔ ∀ e, request.marked? = some e → seen.contains e = true := by
  unfold EdgeRequest.marks
  cases marked : request.marked? with
  | none => exact iff_of_true rfl nofun
  | some e =>
    rw [Option.elim_some]
    apply Iff.intro
    · intro same f asked
      cases asked
      rw [← same, SortedSet.contains_insert, decide_eq_true rfl, Bool.true_or]
    · intro known
      refine SortedSet.ext_contains fun f => ?_
      rw [SortedSet.contains_insert]
      by_cases here : f = e
      · rw [here, known e rfl, Bool.or_true]
      · rw [decide_eq_false here, Bool.false_or]

theorem asBefore_of_supply {t : Supply} (pooled : p.Pooled)
    (pooled' : ((p.withMarks (request.marks p.journal.visitedEdges)).withSupply t).Pooled) :
    p.AsBefore request ((p.withMarks (request.marks p.journal.visitedEdges)).withSupply t) := by
  have alike := p.markedAlike_marks request
  refine ⟨⟨t, rfl⟩, rfl, fun next fits unasked => ?_, ?_⟩
  · have marked : (p.withMarks (request.marks p.journal.visitedEdges)).Pooled :=
      ⟨pooled.owned.reindex _ _, pooled.roomy, pooled.capacity⟩
    obtain ⟨answered, s, left⟩ := answers_withSupply marked pooled' (alike.fitsPool unasked fits)
    obtain ⟨shown, seen, marks, -⟩ := alike.acted unasked
    rw [answered, left, marks]
    exact ⟨shown, rfl⟩
  · rw [← marks_eq_iff]
    apply Iff.intro
    · intro shows
      refine SortedSet.ext_contains fun f => ?_
      have room : p.FitsPool [.call (.journal (.edgeVisited f))] :=
        fitsPool_cons.mpr ⟨pooled.live_le, fitsPool_nil.mpr pooled.live_le⟩
      have asked : [Except.ok (PlanAnswer.journal (.flag ((request.marks p.journal.visitedEdges).contains f)))] =
          [Except.ok (PlanAnswer.journal (.flag (p.journal.visitedEdges.contains f)))] := shows _ room
      simpa using asked
    · intro same next fits
      have unmarked : p.withMarks (request.marks p.journal.visitedEdges) = p := by
        rw [same]
        rfl
      rw [unmarked] at pooled' ⊢
      exact (answers_withSupply pooled pooled' fits).1

/-- Whatever a request for an edge adds, and however the new intent is edited, to take it back leaves the plan as it was
before, apart from the mark of a stored edge. -/
theorem release_undoes_request (c : Config) {actions : List Action} (keeps : ∀ a ∈ actions, a.KeepsIndexes)
    (room : (ofConfig c).FitsPool actions) {request : EdgeRequest} {v : Variable} {q : Plan}
    (answered : ((ofConfig c).acted actions).requestEdge request = (some v, q))
    (new : ((ofConfig c).acted actions).edges.contains v = false) (fits : q.supply.live ≤ c.poolCapacity)
    (unvisited : ∀ e type, request = .object e type → ((ofConfig c).acted actions).journal.visited.get? e = none)
    (edits : List EdgeEdit) : ∃ undone, (q.editEdge v edits).release v = (true, undone) ∧
      ((ofConfig c).acted actions).AsBefore request undone := by
  have tracked := (indexes_end_with_intents c keeps).1
  have pooled : ((ofConfig c).acted actions).Pooled := (Pooled.ofConfig c).acted room
  have config : ((ofConfig c).acted actions).config = c := (ofConfig c).config_acted actions
  generalize (ofConfig c).acted actions = p at *
  have owned := pooled.owned
  have left := ((owned.requestEdge request).editEdge v edits).release v
  have moves := (p.proceeds_requestEdge request).moves
  rcases owned.requestEdge_cases request with found | ⟨w, x, r, added, adds⟩
  · rw [answered, Prod.mk.injEq] at found
    rw [contains_of_standing found.1.symm] at new
    cases new
  · rw [answered, Prod.mk.injEq, Option.some_inj] at added
    obtain ⟨rfl, rfl⟩ := added
    rw [answered] at left moves
    have released := adds.release tracked owned unvisited edits
    rw [released] at left
    rw [← config] at fits
    exact ⟨_, released, asBefore_of_supply pooled (pooled.releaseAll moves fits left rfl rfl)⟩

def pairTakenBack : List Action :=
  [.call (.node (.stored ⟨1⟩ ⟨10⟩) []), .call (.node (.stored ⟨2⟩ ⟨20⟩) []), .call (.edge (.pair "T") [.relate ⟨0⟩ ⟨1⟩]),
    .call (.release ⟨2⟩)]

def askedAgain : List Action :=
  [.call (.edge (.stored ⟨7⟩ "T") []), .call (.edge (.connect ⟨0⟩ "T" ⟨1⟩ .incoming) []), .call .compile,
    .call (.node (.new ⟨3⟩) [])]

theorem pairTakenBack_as_before : ∃ q undone,
    ((ofConfig smallPool).acted pairTakenBack).requestEdge (.stored ⟨7⟩ "T") = (some ⟨2⟩, q) ∧
      (q.editEdge ⟨2⟩ [.setProperty "since" (.bool true)]).release ⟨2⟩ = (true, undone) ∧
      undone.statements = ((ofConfig smallPool).acted pairTakenBack).statements ∧
      (undone.answers askedAgain).map (Except.map (PlanAnswer.hide (some ⟨7⟩))) =
        (((ofConfig smallPool).acted pairTakenBack).answers askedAgain).map (Except.map (PlanAnswer.hide (some ⟨7⟩))) := by
  have keeps : ∀ a ∈ pairTakenBack, a.KeepsIndexes := by
    intro a member
    simp only [pairTakenBack, List.mem_cons, List.not_mem_nil, or_false] at member
    rcases member with rfl | rfl | rfl | rfl <;> trivial
  have room : (ofConfig smallPool).FitsPool pairTakenBack := by decide
  have answered : ((ofConfig smallPool).acted pairTakenBack).requestEdge (.stored ⟨7⟩ "T") = (some ⟨2⟩, _) := rfl
  have room' : ((ofConfig smallPool).acted pairTakenBack).FitsPool askedAgain := by decide +kernel
  have unasked : ∀ e, some (⟨7⟩ : EdgeId) = some e → Action.call (.journal (.edgeVisited e)) ∉ askedAgain := by
    simp [askedAgain]
  obtain ⟨undone, released, before⟩ := release_undoes_request smallPool keeps room answered rfl (by decide) nofun
    [.setProperty "since" (.bool true)]
  exact ⟨_, undone, answered, released, before.statements, (before.later askedAgain room' unasked).1⟩

/-- Asked for and taken back, a stored edge is marked as visited, which it was not before. -/
theorem takenBack_stays_visited : ∃ q undone, (ofConfig .default).requestEdge (.stored ⟨7⟩ "T") = (some ⟨0⟩, q) ∧
    q.release ⟨0⟩ = (true, undone) ∧
      undone.journal.call (.edgeVisited ⟨7⟩) = .ok (.flag true, undone.journal) ∧
      (ofConfig .default).journal.call (.edgeVisited ⟨7⟩) = .ok (.flag false, (ofConfig .default).journal) :=
  ⟨_, _, rfl, rfl, rfl, rfl⟩

end Plan

end GraphWrites
