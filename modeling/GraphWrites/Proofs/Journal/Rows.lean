import GraphWrites.Proofs.Plan.Run
import GraphWrites.Session

namespace GraphWrites

namespace SortedMap

variable {α β : Type} [Ord α] [Std.LawfulEqOrd α] [Std.TransOrd α] [DecidableEq α]

theorem get?_foldl_insert_last (m : SortedMap α β) (before after : List (α × β)) {k : α} {v : β}
    (last : k ∉ after.map Prod.fst) :
    ((before ++ (k, v) :: after).foldl (fun m e => m.insert e.1 e.2) m).get? k = some v := by
  rw [List.foldl_append, List.foldl_cons, get?_foldl_insert_of_not_mem after _ last, get?_insert_self]

theorem get?_foldl_insert_entries (m n : SortedMap α β) (k : α) :
    (n.entries.foldl (fun m e => m.insert e.1 e.2) m).get? k = (n.get? k).or (m.get? k) := by
  cases found : n.get? k with
  | none =>
    have absent : k ∉ n.keys := by
      rw [mem_keys_iff_contains, contains, found]
      simp
    exact get?_foldl_insert_of_not_mem n.entries m absent
  | some v => exact get?_foldl_insert_of_mem n.entries m n.keys_nodup (get?_eq_some_iff.mp found)

end SortedMap

namespace Journal

/-- What taking in rows leaves behind: only ids have changed, and the answer lists created objects by variable. -/
structure TakesIn (j : Journal) (rows : List IdentityRow) (answer : List (Entity × UInt64)) (k : Journal) : Prop where
  frame : k = { j with ids := k.ids }
  last : ∀ before row after v, rows = before ++ row :: after → j.Names row v → (∀ later ∈ after, ¬j.Names later v) →
    k.ids.get? v = some row.id
  others : ∀ v, (∀ row ∈ rows, ¬j.Names row v) → k.ids.get? v = j.ids.get? v
  answered : ∃ vs : List Variable, vs.Pairwise (fun v w => v.index < w.index) ∧
    (∀ v, v ∈ vs ↔ (∃ row ∈ rows, j.Names row v) ∧ ∃ e, j.created.get? v = some e) ∧
    List.Forall₂ (fun v found => j.created.get? v = some found.1 ∧ k.ids.get? v = some found.2) vs answer

variable {j : Journal} {rows : List IdentityRow}

theorem reported_of_unnamed {row : IdentityRow} (unnamed : ∀ v, ¬j.Names row v) :
    j.reported row = .error (.unknownReference row.reference) := by
  have none : (Variable.ofText? row.reference).filter j.returned.contains = none := by
    rw [Option.filter_eq_none_iff]
    exact fun v spelled returned => unnamed v ⟨spelled, returned⟩
  rw [reported, none]

theorem on_applyIds_of_unnamed {before after : List IdentityRow} {row : IdentityRow}
    (named : ∀ earlier ∈ before, ∃ v, j.Names earlier v) (unnamed : ∀ v, ¬j.Names row v) :
    (perform (.applyIds (before ++ row :: after))).on j = (.error (.unknownReference row.reference), j) := by
  have fails : (before ++ row :: after).mapM j.reported = .error (.unknownReference row.reference) := by
    rw [List.mapM_append, mapM_reported_of_names named, List.mapM_cons, reported_of_unnamed unnamed]
    rfl
  rw [on_perform_applyIds, on_takeIds, fails]
  rfl

theorem mem_entries_iff (named : ∀ row ∈ rows, ∃ v, j.Names row v) {v : Variable} :
    v ∈ (rows.map entry).map Prod.fst ↔ ∃ row ∈ rows, j.Names row v := by
  simp only [List.map_map, List.mem_map, Function.comp_apply]
  apply Iff.intro
  · intro h
    obtain ⟨row, member, rfl⟩ := h
    obtain ⟨v, names⟩ := named row member
    rw [names.entry_eq]
    exact ⟨row, member, names⟩
  · intro h
    obtain ⟨row, member, names⟩ := h
    exact ⟨row, member, by rw [names.entry_eq]⟩

def idsOf (rows : List IdentityRow) : SortedMap Variable UInt64 := .ofList (rows.map entry)

theorem applyIds_of_names (named : ∀ row ∈ rows, ∃ v, j.Names row v) :
    j.applyIds rows = .ok ((idsOf rows).entries.filterMap fun (v, id) => (j.created.get? v).map (·, id),
      { j with ids := (idsOf rows).entries.foldl (fun m e => m.insert e.1 e.2) j.ids }) := by
  rw [applyIds_eq, mapM_reported_of_names named]
  rfl

theorem get?_idsOf_of_last {before after : List IdentityRow} {row : IdentityRow} {v : Variable}
    (named : ∀ later ∈ after, ∃ v, j.Names later v) (names : j.Names row v) (last : ∀ later ∈ after, ¬j.Names later v) :
    (idsOf (before ++ row :: after)).get? v = some row.id := by
  have unnamed : v ∉ (after.map entry).map Prod.fst := by
    rw [mem_entries_iff named]
    intro h
    obtain ⟨later, member, again⟩ := h
    exact last later member again
  rw [idsOf, List.map_append, List.map_cons, names.entry_eq]
  exact SortedMap.get?_foldl_insert_last ∅ _ _ unnamed

theorem contains_idsOf_iff (named : ∀ row ∈ rows, ∃ v, j.Names row v) {v : Variable} :
    (idsOf rows).contains v = true ↔ ∃ row ∈ rows, j.Names row v := by
  rw [← SortedMap.mem_keys_iff_contains, idsOf, SortedMap.mem_keys_ofList, mem_entries_iff named]

theorem forall₂_created (created : SortedMap Variable Entity) (es : List (Variable × UInt64)) :
    List.Forall₂ (fun v found => created.get? v = some found.1 ∧ (v, found.2) ∈ es)
      ((es.filter fun e => created.contains e.1).map Prod.fst)
      (es.filterMap fun (v, id) => (created.get? v).map (·, id)) := by
  induction es with
  | nil => exact .nil
  | cons e es ih =>
    have rest := ih.imp fun v found h => And.intro h.1 (List.mem_cons_of_mem e h.2)
    cases found : created.get? e.1 with
    | none => simpa [SortedMap.contains, found] using rest
    | some o => simpa [SortedMap.contains, found] using rest

theorem takesIn_of_names (named : ∀ row ∈ rows, ∃ v, j.Names row v) :
    ∃ answer k, j.applyIds rows = .ok (answer, k) ∧ j.TakesIn rows answer k := by
  refine ⟨_, _, applyIds_of_names named, ?_⟩
  have known : ∀ v, ((idsOf rows).entries.foldl (fun m e => m.insert e.1 e.2) j.ids).get? v =
      ((idsOf rows).get? v).or (j.ids.get? v) := SortedMap.get?_foldl_insert_entries j.ids (idsOf rows)
  constructor
  case frame => rfl
  case last =>
    intro before row after v split names last
    subst split
    have later : ∀ later ∈ after, ∃ v, j.Names later v := fun later member =>
      named later (List.mem_append_right before (List.mem_cons_of_mem row member))
    rw [known, get?_idsOf_of_last later names last]
    rfl
  case others =>
    intro v unnamed
    have absent : (idsOf rows).get? v = none := by
      rw [← SortedMap.contains_eq_false_iff, Bool.eq_false_iff, ne_eq, contains_idsOf_iff named]
      intro h
      obtain ⟨row, member, names⟩ := h
      exact unnamed row member names
    rw [known, absent]
    rfl
  case answered =>
    let objects := (idsOf rows).filter fun v _ => j.created.contains v
    refine ⟨objects.keys, objects.keys_ascending.imp Variable.compare_eq_lt_iff.mp, fun v => ?_, ?_⟩
    · simp only [objects, SortedMap.mem_keys, SortedMap.get?_filter, Option.filter_eq_some_iff]
      rw [exists_and_right, ← SortedMap.contains_iff, contains_idsOf_iff named, SortedMap.contains_iff]
    · refine (forall₂_created j.created (idsOf rows).entries).imp fun v found h => ⟨h.1, ?_⟩
      rw [known, SortedMap.get?_eq_some_iff.mpr h.2]
      rfl

/-- Reported ids are taken in as a whole or not at all. The first row that names no returned variable fails them with its
own text, and whoever holds the journal, as a finished one or as that of the save in progress, holds it unchanged. Where
all rows name returned variables the call succeeds. -/
theorem rows_taken_in_whole_or_not (j : Journal) (rows : List IdentityRow) :
    (∀ before row after, rows = before ++ row :: after → (∀ earlier ∈ before, ∃ v, j.Names earlier v) →
      (∀ v, ¬j.Names row v) →
        (perform (.applyIds rows)).on j = (.error (.unknownReference row.reference), j) ∧
        j.call (.applyIds rows) = .error (.unknownReference row.reference) ∧
        (∀ (s : Session) k, s.finished.get k = j →
          s.callFinished k (.applyIds rows) = (.error (.unknownReference row.reference), s)) ∧
        ∀ s : Session, s.plan.journal = j →
          s.call (.journal (.applyIds rows)) = (.error (.unknownReference row.reference), s)) ∧
      ((∀ row ∈ rows, ∃ v, j.Names row v) →
        ∃ answer k, j.call (.applyIds rows) = .ok (.identities answer, k) ∧ j.TakesIn rows answer k) := by
  constructor
  · intro before row after split named unnamed
    subst split
    have fails : (perform (.applyIds (before ++ row :: after))).on j = _ := on_applyIds_of_unnamed named unnamed
    refine ⟨fails, ?_, fun s k held => ?_, fun s held => ?_⟩
    · rw [call, Attempt.outcome, fails]
    · have same : s.finished.set k j = s.finished := held ▸ List.set_getElem_self k.isLt
      rw [Session.callFinished, show s.finished[k] = j from held, fails]
      dsimp only
      rw [same]
    · subst held
      rw [Session.call, Plan.on_perform_journal, fails]
      rfl
  · intro named
    obtain ⟨answer, k, taken, takesIn⟩ := takesIn_of_names named
    refine ⟨answer, k, ?_, takesIn⟩
    rw [call_applyIds, taken]
    rfl

def threeReturned : Journal :=
  { Journal.empty with
    returned := .ofList [⟨0⟩, ⟨1⟩, ⟨2⟩]
    created := .ofList [(⟨1⟩, ⟨7⟩), (⟨2⟩, ⟨8⟩)]
    ids := .ofList [(⟨2⟩, 5)] }

theorem respelled_rows_taken_in :
    threeReturned.call (.applyIds [⟨"_1", 10⟩, ⟨"_9", 20⟩, ⟨"x", 30⟩]) = .error (.unknownReference "_9") ∧
      ∃ answer k, threeReturned.call (.applyIds [⟨"_1", 10⟩, ⟨"_0", 20⟩, ⟨"_+01", 30⟩]) = .ok (.identities answer, k) ∧
        threeReturned.TakesIn [⟨"_1", 10⟩, ⟨"_0", 20⟩, ⟨"_+01", 30⟩] answer k ∧
        k.ids.get? ⟨1⟩ = some 30 ∧ k.ids.get? ⟨0⟩ = some 20 ∧ k.ids.get? ⟨2⟩ = some 5 := by
  have zero : threeReturned.Names ⟨"_0", 20⟩ ⟨0⟩ := ⟨by decide, by decide⟩
  have one : threeReturned.Names ⟨"_1", 10⟩ ⟨1⟩ := ⟨by decide, by decide⟩
  have again : threeReturned.Names ⟨"_+01", 30⟩ ⟨1⟩ := ⟨by decide, by decide⟩
  have nine : ∀ v, ¬threeReturned.Names ⟨"_9", 20⟩ v := by
    intro v names
    obtain rfl : ⟨9⟩ = v := Option.some_inj.mp names.1
    cases names.2
  obtain ⟨refused, -⟩ := rows_taken_in_whole_or_not threeReturned [⟨"_1", 10⟩, ⟨"_9", 20⟩, ⟨"x", 30⟩]
  obtain ⟨-, accepted⟩ := rows_taken_in_whole_or_not threeReturned [⟨"_1", 10⟩, ⟨"_0", 20⟩, ⟨"_+01", 30⟩]
  have fails := (refused [⟨"_1", 10⟩] _ _ rfl (by simpa using ⟨_, one⟩) nine).2.1
  obtain ⟨answer, k, taken, takesIn⟩ := accepted (by simpa using ⟨⟨_, one⟩, ⟨_, zero⟩, ⟨_, again⟩⟩)
  have other : ¬threeReturned.Names ⟨"_+01", 30⟩ ⟨0⟩ := fun names => by cases names.1
  refine ⟨fails, answer, k, taken, takesIn, ?_, ?_, ?_⟩
  · exact takesIn.last [⟨"_1", 10⟩, ⟨"_0", 20⟩] _ [] _ rfl again (by simp)
  · exact takesIn.last [⟨"_1", 10⟩] _ [⟨"_+01", 30⟩] _ rfl zero (by simpa using other)
  · refine takesIn.others ⟨2⟩ fun row member names => ?_
    simp only [List.mem_cons, List.not_mem_nil, or_false] at member
    rcases member with rfl | rfl | rfl <;> cases names.1

end Journal

end GraphWrites
