import GraphWrites.Proofs.Plan.Failures
import GraphWrites.Proofs.Plan.Indexes

namespace GraphWrites

namespace SortedMap

variable {α β γ : Type} [Ord α] [Std.LawfulEqOrd α] {m : SortedMap α β} {k : α} {b : β}

theorem filterMap_entries_erase (found : m.get? k = some b) {pick : α × β → Option γ} (unpicked : pick (k, b) = none) :
    (m.erase k).entries.filterMap pick = m.entries.filterMap pick := by
  change (m.entries.filter fun e => compare k e.1 != .eq).filterMap pick = _
  rw [List.filterMap_filter]
  refine List.filterMap_congr fun e member => ?_
  split
  · rfl
  · rename_i erased
    obtain ⟨x, c⟩ := e
    obtain rfl : k = x := by simpa using erased
    rw [← get?_eq_some_iff, found] at member
    cases member
    exact unpicked.symm

theorem filter_entries_erase (found : m.get? k = some b) {keep : α × β → Bool} (unkept : keep (k, b) = false) :
    (m.erase k).entries.filter keep = m.entries.filter keep := by
  rw [← List.filterMap_eq_filter]
  exact filterMap_entries_erase found (by simp [Option.guard, unkept])

end SortedMap

open SortedMap

namespace Plan

structure JoinAlike (p q : Plan) : Prop where
  config : q.config = p.config
  edges : q.edges = p.edges
  ledger : q.journal.ledger = p.journal.ledger
  ends : ∀ e ∈ p.edges.values, ∀ v, e.touches v = true → q.nodes.get? v = p.nodes.get? v

theorem isKnown_eq (p : Plan) (v : Option Variable) : p.isKnown v = (v.bind p.nodes.get?).isSome := by
  cases v <;> rfl

namespace JoinAlike

variable {p q : Plan} {e : EdgeIntent} {skipped : SortedSet Variable}

theorem found (alike : p.JoinAlike q) (member : e ∈ p.edges.values) {source target : Option Variable}
    (given : e.endpoints? = some (source, target)) :
    source.bind q.nodes.get? = source.bind p.nodes.get? ∧ target.bind q.nodes.get? = target.bind p.nodes.get? := by
  have same := alike.ends e member
  simp only [EdgeIntent.touches, given, Bool.or_eq_true, beq_iff_eq] at same
  constructor
  · cases source with
    | none => rfl
    | some v => exact same v (.inl rfl)
  · cases target with
    | none => rfl
    | some v => exact same v (.inr rfl)

theorem createdTriples (alike : p.JoinAlike q) (member : e ∈ p.edges.values) :
    q.createdTriples e = p.createdTriples e := by
  cases e with
  | create e =>
    obtain ⟨source, target⟩ := alike.found member rfl
    rw [Plan.createdTriples, Plan.createdTriples, persistedEnds, persistedEnds, persisted?, persisted?, persisted?,
      persisted?, source, target]
  | pair e =>
    obtain ⟨source, target⟩ := alike.found member rfl
    rw [Plan.createdTriples, Plan.createdTriples, persisted?, persisted?, persisted?, persisted?, source, target]
  | _ => rfl

theorem recreated (alike : p.JoinAlike q) : q.recreated = p.recreated := by
  rw [Plan.recreated, Plan.recreated, alike.edges,
    List.flatMap_congr fun _ member => alike.createdTriples member]

theorem isSuperseded (alike : p.JoinAlike q) : q.isSuperseded = p.isSuperseded := by
  funext e
  cases e <;> simp only [Plan.isSuperseded, alike.recreated]

theorem removals (alike : p.JoinAlike q) : q.removals = p.removals := by
  rw [Plan.removals, Plan.removals, alike.ledger, alike.recreated]

theorem unresolvedEnd? (alike : p.JoinAlike q) (member : e ∈ p.edges.values) :
    q.unresolvedEnd? e = p.unresolvedEnd? e := by
  rw [Plan.unresolvedEnd?, Plan.unresolvedEnd?]
  cases given : e.endpoints? with
  | none => rfl
  | some ends =>
    obtain ⟨source, target⟩ := alike.found member given
    simp only [isKnown_eq, source, target]

theorem unresolved (alike : p.JoinAlike q) : q.unresolved = p.unresolved := by
  rw [Plan.unresolved, Plan.unresolved, alike.edges]
  refine List.filterMap_congr fun entry member => ?_
  have same := alike.unresolvedEnd? (List.mem_map_of_mem member)
  exact congrArg (Option.map fun edgeEnd => (entry.1, entry.2, edgeEnd)) same

theorem skipped_eq (alike : p.JoinAlike q) : q.skipped = p.skipped := by
  rw [Plan.skipped, Plan.skipped, alike.config, alike.unresolved]

theorem writtenEdges (alike : p.JoinAlike q) : q.writtenEdges skipped = p.writtenEdges skipped := by
  rw [Plan.writtenEdges, Plan.writtenEdges, alike.edges, alike.isSuperseded]

theorem linkRow? (alike : p.JoinAlike q) (member : e ∈ p.edges.values) (v : Variable) :
    q.linkRow? v e = p.linkRow? v e := by
  cases e with
  | create e =>
    obtain ⟨source, target⟩ := alike.found member rfl
    rw [Plan.linkRow?, Plan.linkRow?, persistedEnds, persistedEnds, persisted?, persisted?, persisted?, persisted?,
      source, target]
  | _ => rfl

theorem renderBatch (alike : p.JoinAlike q) : q.renderBatch skipped = p.renderBatch skipped := by
  have rows : q.linkRows skipped = p.linkRows skipped := by
    rw [linkRows, linkRows, alike.edges]
    refine List.filterMap_congr fun entry member => ?_
    rw [mem_entries_filter] at member
    exact alike.linkRow? (List.mem_map_of_mem member.1) entry.1
  rw [Plan.renderBatch, Plan.renderBatch, rows]

theorem dependsOnNewNodes (alike : p.JoinAlike q) : q.dependsOnNewNodes = p.dependsOnNewNodes := by
  rw [Plan.dependsOnNewNodes, Plan.dependsOnNewNodes, alike.edges, Bool.eq_iff_iff, List.any_eq_true, List.any_eq_true]
  refine exists_congr fun e => and_congr_right fun member => ?_
  cases given : e.endpoints? with
  | none => rfl
  | some ends =>
    obtain ⟨source, target⟩ := alike.found member given
    simp only [List.any_cons, List.any_nil, source, target]

theorem renderSingly (alike : p.JoinAlike q)
    (nodes : q.writtenNodes (p.writtenEdges skipped).values = p.writtenNodes (p.writtenEdges skipped).values) :
    q.renderSingly skipped = p.renderSingly skipped := by
  simp only [Plan.renderSingly, alike.writtenEdges, alike.removals, nodes]

end JoinAlike

def without (p : Plan) (v : Variable) : Plan :=
  { p with supply := (p.supply.release v).2, journal := p.journal.forgetVisits v, nodes := p.nodes.erase v }

theorem unmap_eq (p : Plan) (v : Variable) : p.unmap v = (false, p) ∨
    ∃ n, p.nodes.get? v = some (.update n) ∧ (∀ e ∈ p.edges.values, e.touches v = false) ∧
      p.unmap v = (true, p.without v) := by
  rcases p.unmap_cases v with kept | ⟨n, found, apart, dropped⟩
  · exact .inl kept
  · refine .inr ⟨n, found, fun e member => ?_, dropped⟩
    have untouched := List.all_eq_true.mp apart e member
    rwa [Bool.not_eq_true'] at untouched

section Without

variable {p : Plan} {v : Variable} {n : StoredNode} {skipped : SortedSet Variable}

theorem joinAlike_without (apart : ∀ e ∈ p.edges.values, e.touches v = false) : p.JoinAlike (p.without v) where
  config := rfl
  edges := rfl
  ledger := rfl
  ends e member a touches := by
    have other : a ≠ v := by
      rintro rfl
      rw [apart e member] at touches
      cases touches
    exact get?_erase_of_ne p.nodes other

theorem render_eq_error_iff_without (found : p.nodes.get? v = some (.update n))
    (apart : ∀ e ∈ p.edges.values, e.touches v = false) {f : Failure} :
    (p.without v).render = .error f ↔ p.render = .error f := by
  have keyed : (p.nodes.erase v).entries.findSome? Draft.nodeFailure? = p.nodes.entries.findSome? Draft.nodeFailure? := by
    rw [← List.head?_filterMap, ← List.head?_filterMap, filterMap_entries_erase found rfl]
  rw [render_eq_error_iff, render_eq_error_iff, (joinAlike_without apart).skipped_eq]
  change _ ∨ _ ∧ (p.nodes.erase v).entries.findSome? _ = _ ↔ _
  rw [keyed]

theorem writtenNodes_without (found : p.nodes.get? v = some (.update n)) (unchanged : (NodeIntent.update n).hasChanges = false)
    (apart : ∀ e ∈ p.edges.values, e.touches v = false) :
    (p.without v).writtenNodes (p.writtenEdges skipped).values = p.writtenNodes (p.writtenEdges skipped).values := by
  have apart : v ∉ joined (p.writtenEdges skipped).values := by
    rw [mem_joined]
    intro h
    obtain ⟨e, written, touches⟩ := h
    obtain ⟨w, written⟩ := mem_values.mp written
    obtain ⟨here, -⟩ := get?_writtenEdges_eq_some_iff.mp written
    rw [apart e (mem_values.mpr ⟨w, here⟩)] at touches
    cases touches
  change (p.nodes.erase v).entries.filter _ ++ (p.nodes.erase v).entries.filter _ = _
  rw [filter_entries_erase found rfl, filter_entries_erase found (by simp [unchanged, apart]), writtenNodes]

theorem isBatchable_without (found : p.nodes.get? v = some (.update n)) (unchanged : (NodeIntent.update n).hasChanges = false)
    (apart : ∀ e ∈ p.edges.values, e.touches v = false) : (p.without v).isBatchable = p.isBatchable := by
  have alike := joinAlike_without apart
  have nodes : (∀ w m, (p.nodes.erase v).get? w = some m → m.hasChanges = false) ↔
      ∀ w m, p.nodes.get? w = some m → m.hasChanges = false := by
    refine forall₂_congr fun w m => ?_
    rw [get?_erase]
    split
    · rename_i here
      rw [here, found]
      simp only [reduceCtorEq, false_implies, true_iff, Option.some_inj]
      rintro rfl
      exact unchanged
    · rfl
  rw [Bool.eq_iff_iff, isBatchable_iff, isBatchable_iff, alike.removals, alike.isSuperseded, alike.config, alike.edges]
  change _ ∧ _ ∧ (∀ w m, (p.nodes.erase v).get? w = some m → m.hasChanges = false) ∧ _ ↔ _
  rw [nodes]

theorem render_without (found : p.nodes.get? v = some (.update n)) (unchanged : (NodeIntent.update n).hasChanges = false)
    (apart : ∀ e ∈ p.edges.values, e.touches v = false) : (p.without v).render = p.render := by
  have alike := joinAlike_without apart
  have batch : (p.without v).renderBatch = p.renderBatch := funext fun _ => alike.renderBatch
  have single : (p.without v).renderSingly = p.renderSingly :=
    funext fun _ => alike.renderSingly (writtenNodes_without found unchanged apart)
  rw [render, render, alike.skipped_eq, isBatchable_without found unchanged apart, batch, single]

end Without

/-- What is left when a stored node has been taken back. -/
structure Unmapped (p : Plan) (v : Variable) (q : Plan) : Prop where
  stored : ∃ n, p.nodes.get? v = some (.update n)
  nodes : q.nodes = p.nodes.erase v
  edges : q.edges = p.edges
  ends : ∀ w e a n, p.edges.get? w = some e → e.touches a = true → p.nodes.get? a = some n → q.nodes.get? a = some n
  visited : ∀ e w, q.journal.visited.get? e = some w ↔ p.journal.visited.get? e = some w ∧ w ≠ v
  statements_fails : ∀ f, q.statements = .error f ↔ p.statements = .error f
  compile_fails : ∀ f, q.compile = .error f ↔ p.compile = .error f

/-- The save is written as before, in either of the two ways. Only the visits of one variable are missing. -/
structure WrittenAsBefore (p : Plan) (v : Variable) (q : Plan) : Prop where
  render : q.render = p.render
  singly : ∀ skipped, q.renderSingly skipped = p.renderSingly skipped
  batch : ∀ skipped, q.renderBatch skipped = p.renderBatch skipped
  statements : q.statements = p.statements
  compiled : ∀ finished left, p.compile = .ok (finished, left) → ∃ rest, q.compile = .ok (finished.forgetVisits v, rest)
  batchable : q.isBatchable = p.isBatchable
  dependent : q.dependsOnNewNodes = p.dependsOnNewNodes

section Without

variable {p : Plan} {v : Variable} {n : StoredNode}

theorem unmapped_without (found : p.nodes.get? v = some (.update n))
    (apart : ∀ e ∈ p.edges.values, e.touches v = false) : p.Unmapped v (p.without v) where
  stored := ⟨n, found⟩
  nodes := rfl
  edges := rfl
  ends w e a m here touches known := by
    rw [(joinAlike_without apart).ends e (mem_values.mpr ⟨w, here⟩) a touches, known]
  visited e w := Journal.get?_visited_forgetVisits p.journal v e w
  statements_fails f := by
    rw [statements_eq_error_iff, statements_eq_error_iff, render_eq_error_iff_without found apart]
  compile_fails f := by
    rw [compile_eq_error_iff, compile_eq_error_iff, render_eq_error_iff_without found apart]

theorem writtenAsBefore_without (found : p.nodes.get? v = some (.update n))
    (unchanged : (NodeIntent.update n).hasChanges = false) (apart : ∀ e ∈ p.edges.values, e.touches v = false) :
    p.WrittenAsBefore v (p.without v) := by
  have alike := joinAlike_without apart
  have render := render_without found unchanged apart
  constructor
  case render => exact render
  case singly => exact fun _ => alike.renderSingly (writtenNodes_without found unchanged apart)
  case batch => exact fun _ => alike.renderBatch
  case statements => rw [Plan.statements, Plan.statements, render]
  case batchable => exact isBatchable_without found unchanged apart
  case dependent => exact alike.dependsOnNewNodes
  case compiled =>
    intro finished left compiled
    obtain ⟨r, -, rendered, -⟩ := compile_cases compiled
    rw [compile_eq rendered] at compiled
    cases compiled
    rw [compile_eq (render.trans rendered), alike.recreated]
    exact ⟨_, rfl⟩

end Without

/-- Taking back a node does no harm. A node that an edge joins, or one that is new, is kept, and nothing changes. Otherwise
the edges keep the nodes at their ends, a save fails as it would have failed, the visits to the node and no others are
forgotten, and unless the node was to change the save is written as before. -/
theorem unmap_harmless (p : Plan) (v : Variable) :
    ((p.unmap v).1 = false → (p.unmap v).2 = p) ∧
      ((p.unmap v).1 = true → p.Unmapped v (p.unmap v).2 ∧
        ∀ n, p.nodes.get? v = some n → n.hasChanges = false → p.WrittenAsBefore v (p.unmap v).2) := by
  rcases p.unmap_eq v with kept | ⟨n, found, apart, dropped⟩
  · rw [kept]
    exact ⟨fun _ => rfl, nofun⟩
  · rw [dropped]
    refine ⟨nofun, fun _ => ⟨unmapped_without found apart, fun m known unchanged => ?_⟩⟩
    rw [found] at known
    cases known
    exact writtenAsBefore_without found unchanged apart

def nodeApart : Plan := (ofConfig .lenient).after
  [.node (.stored ⟨1⟩ ⟨10⟩) [], .node (.stored ⟨2⟩ ⟨20⟩) [], .node (.stored ⟨3⟩ ⟨30⟩) [], .node (.stored ⟨4⟩ ⟨30⟩) [],
    .edge (.connect ⟨0⟩ "T" ⟨1⟩ .incoming) [], .edge (.new "T") [.relate ⟨0⟩ ⟨9⟩], .unrelate ⟨"U", ⟨20⟩, ⟨10⟩⟩ none]

theorem nodeApart_unmapped :
    (nodeApart.unmap ⟨1⟩).2 = nodeApart ∧
      (nodeApart.unmap ⟨2⟩).1 = true ∧ (nodeApart.unmap ⟨2⟩).2.journal.visited.get? ⟨4⟩ = none ∧
      (nodeApart.unmap ⟨2⟩).2.render = nodeApart.render := by
  obtain ⟨kept, -⟩ := unmap_harmless nodeApart ⟨1⟩
  obtain ⟨-, dropped⟩ := unmap_harmless nodeApart ⟨2⟩
  obtain ⟨unmapped, written⟩ := dropped (by decide)
  have forgotten : (nodeApart.unmap ⟨2⟩).2.journal.visited.get? ⟨4⟩ = none := by
    cases found : (nodeApart.unmap ⟨2⟩).2.journal.visited.get? ⟨4⟩ with
    | none => rfl
    | some w =>
      obtain ⟨before, other⟩ := (unmapped.visited ⟨4⟩ w).mp found
      obtain rfl : ⟨2⟩ = w := Option.some_inj.mp before
      exact absurd rfl other
  exact ⟨kept (by decide), by decide, forgotten, (written _ rfl (by decide)).render⟩

end Plan

end GraphWrites
