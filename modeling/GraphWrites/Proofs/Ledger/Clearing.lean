import GraphWrites.Ledger
import GraphWrites.Proofs.SortedMap

namespace GraphWrites.Ledger

def selected (l : Ledger) (c : Clearing) : List EdgeRecord := l.present.toList.filter c.selects

def repeated (l : Ledger) (c : Clearing) : List EdgeRecord :=
  (l.removed.filter fun r d => d == c.direction && c.selects r).keys

def sift (taken : Triple → Bool) : List EdgeRecord → List EdgeRecord × List EdgeRecord
  | [] => ([], [])
  | r :: rs =>
    if taken r.triple then
      let (moved, kept) := sift taken rs
      (moved, r :: kept)
    else
      let (moved, kept) := sift (fun t => taken t || t == r.triple) rs
      (r :: moved, kept)

def moved (l : Ledger) (c : Clearing) : List EdgeRecord := (sift (l.removedFrom c.direction) (l.selected c)).1

/-- The selected records that a clearing keeps because of an earlier removal of their triple. -/
def kept (l : Ledger) (c : Clearing) : List EdgeRecord := (sift (l.removedFrom c.direction) (l.selected c)).2

theorem mem_selected {l : Ledger} {c : Clearing} {r : EdgeRecord} :
    r ∈ l.selected c ↔ l.present.contains r = true ∧ c.selects r = true := by
  rw [selected, List.mem_filter, SortedSet.mem_toList]

theorem mem_repeated {l : Ledger} {c : Clearing} {r : EdgeRecord} :
    r ∈ l.repeated c ↔ l.removed.get? r = some c.direction ∧ c.selects r = true := by
  simp only [repeated, SortedMap.mem_keys, SortedMap.get?_filter, Option.filter_eq_some_iff, Bool.and_eq_true,
    beq_iff_eq]
  apply Iff.intro
  · intro h
    obtain ⟨d, found, rfl, selects⟩ := h
    exact ⟨found, selects⟩
  · intro h
    obtain ⟨found, selects⟩ := h
    exact ⟨_, found, rfl, selects⟩

theorem selected_nodup (l : Ledger) (c : Clearing) : (l.selected c).Nodup := l.present.toList_nodup.filter _

theorem repeated_nodup (l : Ledger) (c : Clearing) : (l.repeated c).Nodup := SortedMap.keys_nodup _

theorem removedFrom_iff {l : Ledger} {d : Direction} {t : Triple} :
    l.removedFrom d t = true ↔ ∃ r, l.removed.get? r = some d ∧ r.triple = t := by
  simp only [removedFrom, List.any_eq_true, Bool.and_eq_true, beq_iff_eq, SortedMap.get?_eq_some_iff]
  apply Iff.intro
  · intro h
    obtain ⟨⟨r, _⟩, member, rfl, same⟩ := h
    exact ⟨r, member, same⟩
  · intro h
    obtain ⟨r, member, same⟩ := h
    exact ⟨(r, d), member, rfl, same⟩

theorem removedFrom_insert (l : Ledger) (d : Direction) (r : EdgeRecord) (t : Triple) :
    removedFrom { l with removed := l.removed.insert r d } d t = (l.removedFrom d t || t == r.triple) := by
  rw [Bool.eq_iff_iff, Bool.or_eq_true, removedFrom_iff, removedFrom_iff, beq_iff_eq]
  apply Iff.intro
  · intro h
    obtain ⟨s, found, same⟩ := h
    rw [SortedMap.get?_insert] at found
    split at found
    · rename_i here
      exact .inr (here ▸ same.symm)
    · exact .inl ⟨s, found, same⟩
  · intro h
    rcases h with ⟨s, found, same⟩ | same
    · refine ⟨s, ?_, same⟩
      rw [SortedMap.get?_insert]
      split
      · rfl
      · exact found
    · exact ⟨r, SortedMap.get?_insert_self _ _ _, same.symm⟩

/-- Withdrawing records one after the other sifts them. Each scheduled record takes its triple for the
records behind it, and a kept record takes nothing. -/
theorem withdraw_all (d : Direction) (rs : List EdgeRecord) (scheduled : Bool) (l : Ledger) :
    rs.foldl (fun (scheduled, l) r =>
      let (moved, l) := l.withdraw d r
      (scheduled || moved, l)) (scheduled, l) =
    (scheduled || !(sift (l.removedFrom d) rs).1.isEmpty,
      { present := l.present.insertMany (sift (l.removedFrom d) rs).2
        removed := (sift (l.removedFrom d) rs).1.foldl (fun m r => m.insert r d) l.removed
        conflicts := l.conflicts + (sift (l.removedFrom d) rs).2.length }) := by
  induction rs generalizing scheduled l with
  | nil => simp [sift, SortedSet.insertMany]
  | cons r rs ih =>
    rw [List.foldl_cons, ih]
    by_cases taken : l.removedFrom d r.triple = true
    · have same : removedFrom { l with present := l.present.insert r, conflicts := l.conflicts + 1 } d =
          l.removedFrom d := rfl
      simp only [withdraw, if_pos taken, same, sift, Bool.or_false, List.length_cons, SortedSet.insertMany,
        List.foldl_cons]
      congr 2
      omega
    · have next : removedFrom { l with removed := l.removed.insert r d } d =
          fun t => l.removedFrom d t || t == r.triple := funext fun t => removedFrom_insert l d r t
      simp only [withdraw, if_neg taken, next, sift, List.isEmpty_cons, Bool.not_false, Bool.or_true,
        Bool.true_or, List.foldl_cons]

theorem reinstate_all (rs : List EdgeRecord) (l : Ledger) :
    rs.foldl reinstate l =
      { present := l.present.insertMany rs
        removed := rs.foldl SortedMap.erase l.removed
        conflicts := l.conflicts + rs.length } := by
  induction rs generalizing l with
  | nil => rfl
  | cons r rs ih =>
    rw [List.foldl_cons, ih]
    simp only [reinstate, SortedSet.insertMany, List.foldl_cons, List.length_cons, mk.injEq, true_and]
    omega

theorem clear_eq (l : Ledger) (c : Clearing) :
    l.clear c = ((l.selected c).isEmpty && (l.repeated c).isEmpty || !(l.moved c).isEmpty,
      { present := ((l.present.filter fun r => !c.selects r).insertMany (l.kept c)).insertMany (l.repeated c)
        removed := (l.repeated c).foldl SortedMap.erase ((l.moved c).foldl (fun m r => m.insert r c.direction) l.removed)
        conflicts := l.conflicts + (l.kept c).length + (l.repeated c).length }) := by
  have steps : l.clear c = if (l.selected c).isEmpty && (l.repeated c).isEmpty then (true, l) else
      let result := (l.selected c).foldl (fun (scheduled, l) r =>
        let (moved, l) := l.withdraw c.direction r
        (scheduled || moved, l)) (false, { l with present := l.present.filter fun r => !c.selects r })
      (result.1, (l.repeated c).foldl reinstate result.2) := rfl
  rw [steps]
  by_cases nothing : ((l.selected c).isEmpty && (l.repeated c).isEmpty) = true
  · obtain ⟨unselected, again⟩ := Bool.and_eq_true_iff.mp nothing
    rw [List.isEmpty_iff] at unselected again
    have same : (l.present.filter fun r => !c.selects r) = l.present := by
      apply SortedSet.ext_contains
      intro r
      rw [SortedSet.contains_filter]
      by_cases present : l.present.contains r = true
      · have : r ∉ l.selected c := unselected ▸ List.not_mem_nil
        have : c.selects r = false := by simpa [mem_selected, present] using this
        simp [this, present]
      · simp [present]
    rw [if_pos nothing]
    simp [moved, kept, unselected, again, sift, same, SortedSet.insertMany]
  · rw [if_neg nothing, withdraw_all]
    simp only [reinstate_all, Bool.false_or, Bool.not_eq_true] at nothing ⊢
    rw [nothing]
    rfl

theorem get?_foldl_erase (rs : List EdgeRecord) (m : SortedMap EdgeRecord Direction) (r : EdgeRecord) :
    (rs.foldl SortedMap.erase m).get? r = if r ∈ rs then none else m.get? r := by
  induction rs generalizing m with
  | nil => simp
  | cons s rs ih =>
    rw [List.foldl_cons, ih, SortedMap.get?_erase]
    by_cases same : r = s <;> by_cases later : r ∈ rs <;> simp [same, later]

theorem get?_foldl_insert (d : Direction) (rs : List EdgeRecord) (m : SortedMap EdgeRecord Direction)
    (r : EdgeRecord) :
    (rs.foldl (fun m r => m.insert r d) m).get? r = if r ∈ rs then some d else m.get? r := by
  induction rs generalizing m with
  | nil => simp
  | cons s rs ih =>
    rw [List.foldl_cons, ih, SortedMap.get?_insert]
    by_cases same : r = s <;> by_cases later : r ∈ rs <;> simp [same, later]

theorem clear_present (l : Ledger) (c : Clearing) (r : EdgeRecord) :
    (l.clear c).2.present.contains r = true ↔
      (l.present.contains r = true ∧ c.selects r = false) ∨ r ∈ l.kept c ∨ r ∈ l.repeated c := by
  rw [clear_eq]
  simp only [SortedSet.contains_insertMany, SortedSet.contains_filter, Bool.or_eq_true, decide_eq_true_eq,
    Bool.and_eq_true, Bool.not_eq_true']
  tauto

theorem clear_removed (l : Ledger) (c : Clearing) (r : EdgeRecord) :
    (l.clear c).2.removed.get? r =
      if r ∈ l.repeated c then none else if r ∈ l.moved c then some c.direction else l.removed.get? r := by
  rw [clear_eq]
  simp only [get?_foldl_erase, get?_foldl_insert]

theorem clear_conflicts (l : Ledger) (c : Clearing) :
    (l.clear c).2.conflicts = l.conflicts + (l.kept c).length + (l.repeated c).length := by
  rw [clear_eq]

theorem clear_answer (l : Ledger) (c : Clearing) :
    (l.clear c).1 = true ↔ (l.selected c = [] ∧ l.repeated c = []) ∨ l.moved c ≠ [] := by
  rw [clear_eq]
  simp

theorem sift_of_distinct (taken : Triple → Bool) (rs : List EdgeRecord) (free : ∀ r ∈ rs, taken r.triple = false)
    (distinct : rs.Pairwise fun r s => r.triple ≠ s.triple) : sift taken rs = (rs, []) := by
  induction rs generalizing taken with
  | nil => rfl
  | cons r rs ih =>
    have here := free r List.mem_cons_self
    rw [List.pairwise_cons] at distinct
    have rest := ih (fun t => taken t || t == r.triple) (fun s member => by
      have apart := distinct.1 s member
      simp [free s (List.mem_cons_of_mem _ member), Ne.symm apart]) distinct.2
    simp [sift, here, rest]

end GraphWrites.Ledger
