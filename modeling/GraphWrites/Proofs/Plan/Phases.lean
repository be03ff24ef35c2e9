import GraphWrites.Proofs.Plan.Change
import GraphWrites.Proofs.Plan.Reconciliation
import GraphWrites.Proofs.Plan.Scope

namespace GraphWrites

section Picked

variable {α β γ δ : Type}

def picked (part : β → Option γ) (xs : List (α × β)) : List (α × γ) := xs.filterMap fun e => (part e.2).map (e.1, ·)

theorem mem_picked {part : β → Option γ} {xs : List (α × β)} {k : α} {c : γ} :
    (k, c) ∈ picked part xs ↔ ∃ b, (k, b) ∈ xs ∧ part b = some c := by
  simp only [picked, List.mem_filterMap, Option.map_eq_some_iff, Prod.mk.injEq, Prod.exists]
  apply Iff.intro
  · intro h
    obtain ⟨_, b, member, _, found, rfl, rfl⟩ := h
    exact ⟨b, member, found⟩
  · intro h
    obtain ⟨b, member, found⟩ := h
    exact ⟨k, b, member, c, found, rfl, rfl⟩

end Picked

def Clause.carries : Clause → Bool
  | carry _ => true
  | _ => false

namespace NodeIntent

def new? : NodeIntent → Option NewNode
  | create n => some n
  | update _ => none

def stored? : NodeIntent → Option StoredNode
  | create _ => none
  | update n => some n

end NodeIntent

def NewNode.clause (v : Variable) (n : NewNode) : Clause :=
  match n.primaryKey with
  | none => .create v n.labels.toList
  | some key => .merge v n.labels.toList key

def EdgeIntent.creation? (e : EdgeIntent) : Option EdgeIntent := e.endpoints?.map fun _ => e

/-- The clauses by which an intent creates its edges: one for a single edge, and for a pair one each way. -/
inductive EdgeIntent.Draws (v : Variable) : EdgeIntent → List Clause → Prop where
  | single {e : NewEdge} {a b : Variable} (source : e.source = some a) (target : e.target = some b) :
      Draws v (.create e) [.connect e.singleton v a b e.type e.props.keys e.direction]
  | double {e : EdgePair} {a b : Variable} (source : e.source = some a) (target : e.target = some b) :
      Draws v (.pair e) [.connect false v a b e.type e.props.keys .outgoing,
        .connect false e.reverse b a e.type e.props.keys .outgoing]

theorem EdgeIntent.draws_of_ends {e : EdgeIntent} {a b : Variable} (ends : e.endpoints? = some (some a, some b))
    (v : Variable) : e.Draws v ((e.drawn v).map DrawnEdge.clause) ∧ (e.drawn v).map DrawnEdge.own = e.owned v := by
  cases e with
  | create e =>
    obtain ⟨source, target⟩ := Prod.mk.inj (Option.some_inj.mp ends)
    rw [drawn, source, target]
    exact ⟨.single source target, rfl⟩
  | pair e =>
    obtain ⟨source, target⟩ := Prod.mk.inj (Option.some_inj.mp ends)
    rw [drawn, source, target]
    exact ⟨.double source target, rfl⟩
  | patch e => cases ends
  | delete e => cases ends

theorem EdgeIntent.drawn_of_no_ends {e : EdgeIntent} (none : e.endpoints? = none) (v : Variable) : e.drawn v = [] := by
  cases e with
  | create e => cases none
  | pair e => cases none
  | patch e => rfl
  | delete e => rfl

namespace Draft

end Draft

structure Phases where
  created : List (Variable × NewNode)
  matched : List (Variable × StoredNode)
  drawn : List (Variable × EdgeIntent)
  reported : List Variable
  updates : List Query
  deletes : List Query

/-- The clauses of the script, but for those that carry variables on and the report at the end. -/
def Phases.clauses (ph : Phases) : List Clause :=
  ph.created.map (fun e => e.2.clause e.1) ++
    ph.matched.flatMap (fun e => .locate e.1 :: Draft.storedChanges e.1 e.2) ++
    ph.drawn.flatMap fun e => (e.2.drawn e.1).map DrawnEdge.clause

/-- There are rows, all of them can be read, and they have their key in common. -/
def Keyed {α κ : Type} (key : α → κ) (k : κ) (rows : List (Option α)) : Prop :=
  rows ≠ [] ∧ ∀ row ∈ rows, ∃ a, row = some a ∧ key a = k

namespace Query

def Deletes (q : Query) (key : String × Bool) : Prop := Keyed DeleteRow.key key q.deleteRows

end Query

namespace Plan

variable {p : Plan} {skipped : SortedSet Variable}

theorem get?_writtenEdges_iff (skips : p.skipped = .ok skipped) {v : Variable} {e : EdgeIntent} :
    (p.writtenEdges skipped).get? v = some e ↔
      p.edges.get? v = some e ∧ p.unresolvedEnd? e = none ∧ p.isSuperseded e = false := by
  rw [get?_writtenEdges_eq_some_iff]
  refine and_congr_right fun found => and_congr_left fun _ => ?_
  have left := contains_skipped_iff skips found
  cases kept : skipped.contains v
  · simpa [kept] using left
  · simpa [kept] using left

def phases (p : Plan) (skipped : SortedSet Variable) : Phases :=
  let edges := p.writtenEdges skipped
  { created := picked NodeIntent.new? (p.nodes.entries.filter fun e => e.2.isNew)
    matched := picked NodeIntent.stored?
      (p.nodes.entries.filter fun e => !e.2.isNew && (e.2.hasChanges || (joined edges.values).contains e.1))
    drawn := picked EdgeIntent.creation? edges.entries
    reported := (p.draft skipped).returned.toList
    updates := patches edges.values
    deletes := deletions (p.writtenDeletions skipped) }

theorem mem_drawn_iff_written {v : Variable} {e : EdgeIntent} : (v, e) ∈ (p.phases skipped).drawn ↔
    (p.writtenEdges skipped).get? v = some e ∧ e.endpoints? ≠ none := by
  simp only [phases, mem_picked, EdgeIntent.creation?, ← SortedMap.get?_eq_some_iff, Option.map_eq_some_iff,
    Option.ne_none_iff_exists']
  apply Iff.intro
  · intro h
    obtain ⟨_, written, ends, given, rfl⟩ := h
    exact ⟨written, ends, given⟩
  · intro h
    obtain ⟨written, ends, given⟩ := h
    exact ⟨e, written, ends, given, rfl⟩

theorem mem_drawn (skips : p.skipped = .ok skipped) {v : Variable} {e : EdgeIntent} :
    (v, e) ∈ (p.phases skipped).drawn ↔
      p.edges.get? v = some e ∧ e.endpoints? ≠ none ∧ p.unresolvedEnd? e = none := by
  rw [mem_drawn_iff_written, get?_writtenEdges_iff skips]
  apply Iff.intro
  · intro h
    obtain ⟨⟨found, resolved, -⟩, ends⟩ := h
    exact ⟨found, ends, resolved⟩
  · intro h
    obtain ⟨found, ends, resolved⟩ := h
    have kept : p.isSuperseded e = false := by
      cases e with
      | delete d => exact absurd rfl ends
      | _ => rfl
    exact ⟨⟨found, resolved, kept⟩, ends⟩

theorem ends_of_mem_drawn (skips : p.skipped = .ok skipped) {v : Variable} {e : EdgeIntent}
    (member : (v, e) ∈ (p.phases skipped).drawn) : ∃ a b, e.endpoints? = some (some a, some b) := by
  obtain ⟨-, ends, resolved⟩ := (mem_drawn skips).mp member
  obtain ⟨⟨source, target⟩, given⟩ := Option.ne_none_iff_exists'.mp ends
  obtain ⟨first, last⟩ := unresolvedEnd?_eq_none_iff.mp resolved _ given
  obtain ⟨a, -, rfl, -⟩ := isKnown_iff.mp first
  obtain ⟨b, -, rfl, -⟩ := isKnown_iff.mp last
  exact ⟨a, b, given⟩

theorem mem_created {v : Variable} {n : NewNode} :
    (v, n) ∈ (p.phases skipped).created ↔ p.nodes.get? v = some (.create n) := by
  simp only [phases, mem_picked, List.mem_filter, ← SortedMap.get?_eq_some_iff]
  apply Iff.intro
  · intro h
    obtain ⟨i, ⟨found, -⟩, picked⟩ := h
    cases i with
    | create m =>
      cases picked
      exact found
    | update m => cases picked
  · intro found
    exact ⟨_, ⟨found, rfl⟩, rfl⟩

theorem mem_newNodes {v : Variable} :
    v ∈ ((p.writtenNodes (p.writtenEdges skipped).values).filter fun e => e.2.isNew).map Prod.fst ↔
      ∃ n, (v, n) ∈ (p.phases skipped).created := by
  simp only [mem_created, List.mem_map, List.mem_filter, Prod.exists, mem_writtenNodes]
  apply Iff.intro
  · intro h
    obtain ⟨_, n, ⟨⟨found, -⟩, new⟩, rfl⟩ := h
    cases n with
    | create n => exact ⟨n, found⟩
    | update n => cases new
  · intro h
    obtain ⟨n, found⟩ := h
    exact ⟨v, _, ⟨⟨found, .inl rfl⟩, rfl⟩, rfl⟩

theorem mem_drawn_own (skips : p.skipped = .ok skipped) {v : Variable} :
    v ∈ (Draft.drawnEdges (p.writtenEdges skipped).entries).map DrawnEdge.own ↔
      ∃ w e, (w, e) ∈ (p.phases skipped).drawn ∧ v ∈ e.owned w := by
  simp only [List.mem_map, mem_drawnEdges]
  apply Iff.intro
  · intro h
    obtain ⟨x, ⟨w, e, written, member⟩, rfl⟩ := h
    refine ⟨w, e, mem_drawn_iff_written.mpr ⟨written, fun none => ?_⟩, (own_of_mem_drawn member).1⟩
    rw [EdgeIntent.drawn_of_no_ends none] at member
    cases member
  · intro h
    obtain ⟨w, e, member, own⟩ := h
    obtain ⟨a, b, ends⟩ := ends_of_mem_drawn skips member
    rw [← (e.draws_of_ends ends w).2] at own
    obtain ⟨x, inside, rfl⟩ := List.mem_map.mp own
    exact ⟨x, ⟨w, e, (mem_drawn_iff_written.mp member).1, inside⟩, rfl⟩

theorem contains_returned_draft (skips : p.skipped = .ok skipped) {v : Variable} :
    (p.draft skipped).returned.contains v = true ↔
      (∃ n, (v, n) ∈ (p.phases skipped).created) ∨ ∃ w e, (w, e) ∈ (p.phases skipped).drawn ∧ v ∈ e.owned w := by
  rw [draft, Draft.foldl_draw]
  dsimp only
  rw [SortedSet.contains_insertMany, Draft.returned_foldl_introduce, SortedSet.contains_insertMany, Bool.or_eq_true,
    Bool.or_eq_true, decide_eq_true_eq, decide_eq_true_eq, mem_newNodes, mem_drawn_own skips, or_comm]
  exact or_congr_left (or_iff_left Bool.false_ne_true)

end Plan

end GraphWrites
