import GraphWrites.Proofs.Plan.Batch

namespace GraphWrites

def EdgeWrite.triple (w : EdgeWrite) : Triple := ⟨w.type, w.source, w.target⟩

def Parameters.located (given : Parameters) (v : Variable) : Option NodeId :=
  ((given.get? v.text).bind (Json.field? "nodeId")).bind Json.nodeId?

namespace NodeIntent

end NodeIntent

namespace Plan

variable {p : Plan} {skipped : SortedSet Variable} {t : Triple}

theorem known_of_touches {e : EdgeIntent} (resolved : p.unresolvedEnd? e = none) {a : Variable}
    (touches : e.touches a = true) : ∃ n, p.nodes.get? a = some n := by
  have ends := unresolvedEnd?_eq_none_iff.mp resolved
  unfold EdgeIntent.touches at touches
  split at touches
  · rename_i source target given
    obtain ⟨first, last⟩ := ends _ given
    rw [Bool.or_eq_true, beq_iff_eq, beq_iff_eq] at touches
    have known : p.isKnown (some a) = true := by
      rcases touches with same | same
      · exact same ▸ first
      · exact same ▸ last
    obtain ⟨w, n, same, found⟩ := isKnown_iff.mp known
    cases same
    exact ⟨n, found⟩
  · cases touches

theorem mem_clauses_draft {c : Clause} : c ∈ (p.draft skipped).clauses ↔
    c ∈ ((p.writtenNodes (p.writtenEdges skipped).values).foldl Draft.introduce .empty).clauses ∨
      ∃ v e, (p.writtenEdges skipped).get? v = some e ∧ ∃ x ∈ e.drawn v, x.clause = c := by
  simp only [clauses_draft, List.mem_append, List.mem_map, Draft.drawnEdges, List.mem_flatMap, Prod.exists,
    SortedMap.get?_eq_some_iff]
  refine or_congr_right ?_
  apply Iff.intro
  · intro h
    obtain ⟨x, ⟨v, e, written, drawn⟩, rfl⟩ := h
    exact ⟨v, e, written, x, drawn, rfl⟩
  · intro h
    obtain ⟨v, e, written, x, drawn, rfl⟩ := h
    exact ⟨x, ⟨v, e, written, drawn⟩, rfl⟩

end Plan

end GraphWrites
