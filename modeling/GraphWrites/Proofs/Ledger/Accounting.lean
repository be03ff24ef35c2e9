import GraphWrites.Proofs.Ledger.Conflicts

namespace GraphWrites.Ledger

variable {l : Ledger} {c : Clearing} {r : EdgeRecord}

theorem not_mem_of_not_selects (unselected : c.selects r = false) :
    r ∉ l.moved c ∧ r ∉ l.kept c ∧ r ∉ l.repeated c := by
  rw [← Bool.not_eq_true] at unselected
  refine ⟨fun moved => ?_, fun kept => ?_, fun again => ?_⟩
  · exact unselected (present_of_mem_moved moved).2
  · exact unselected (present_of_mem_kept kept).2
  · exact unselected (mem_repeated.mp again).2

theorem contains_present_clear_of_not_selects (unselected : c.selects r = false) :
    (l.clear c).2.present.contains r = l.present.contains r := by
  obtain ⟨-, kept, again⟩ := not_mem_of_not_selects (l := l) unselected
  rw [Bool.eq_iff_iff, clear_present]
  simp [unselected, kept, again]

theorem get?_removed_clear_of_not_selects (unselected : c.selects r = false) :
    (l.clear c).2.removed.get? r = l.removed.get? r := by
  obtain ⟨moved, -, again⟩ := not_mem_of_not_selects (l := l) unselected
  rw [clear_removed, if_neg again, if_neg moved]

theorem Split.not_mem_repeated (split : l.Split) (present : l.present.contains r = true) : r ∉ l.repeated c := by
  intro again
  have absent := split r present
  rw [SortedMap.contains_iff.mpr ⟨_, (mem_repeated.mp again).1⟩] at absent
  cases absent

theorem Split.get?_removed_clear_of_ne (split : l.Split) {d : Direction} (removed : l.removed.get? r = some d)
    (other : d ≠ c.direction) : (l.clear c).2.removed.get? r = some d := by
  have again : r ∉ l.repeated c := by
    intro member
    have here := (mem_repeated.mp member).1
    rw [removed] at here
    exact other (Option.some_inj.mp here)
  have moved : r ∉ l.moved c := by
    intro member
    have absent := split r (present_of_mem_moved member).1
    rw [SortedMap.contains_iff.mpr ⟨d, removed⟩] at absent
    cases absent
  rw [clear_removed, if_neg again, if_neg moved, removed]

theorem Split.mem_moved_iff (split : l.Split) :
    r ∈ l.moved c ↔ c.selects r = true ∧ l.present.contains r = true ∧ (l.clear c).2.removed.contains r = true := by
  rw [clear_contains_removed]
  apply Iff.intro
  · intro moved
    obtain ⟨present, selects⟩ := present_of_mem_moved moved
    exact ⟨selects, present, split.not_mem_repeated present, .inl moved⟩
  · intro h
    obtain ⟨-, present, -, moved | removed⟩ := h
    · exact moved
    · rw [split r present] at removed
      cases removed

theorem mem_selected_clear : r ∈ (l.clear c).2.selected c ↔ r ∈ l.kept c ∨ r ∈ l.repeated c := by
  rw [mem_selected, clear_present]
  apply Iff.intro
  · intro h
    obtain ⟨⟨-, unselected⟩ | kept | again, selects⟩ := h
    · rw [unselected] at selects
      cases selects
    · exact .inl kept
    · exact .inr again
  · intro h
    rcases h with kept | again
    · exact ⟨.inr (.inl kept), (present_of_mem_kept kept).2⟩
    · exact ⟨.inr (.inr again), (mem_repeated.mp again).2⟩

theorem Split.length_selected_clear (split : l.Split) (c : Clearing) :
    ((l.clear c).2.selected c).length = (l.kept c).length + (l.repeated c).length := by
  have once : (l.kept c).Nodup := (l.selected_nodup c).sublist (sift_snd_sublist _ _)
  have apart : List.Disjoint (l.kept c) (l.repeated c) := by
    intro r kept again
    exact split.not_mem_repeated (present_of_mem_kept kept).1 again
  have same : ((l.clear c).2.selected c).Perm (l.kept c ++ l.repeated c) := by
    refine (List.perm_ext_iff_of_nodup (selected_nodup _ c) (once.append (l.repeated_nodup c) apart)).mpr fun r => ?_
    rw [mem_selected_clear, List.mem_append]
  rw [same.length_eq, List.length_append]

theorem nothing_selected_iff : l.selected c = [] ∧ l.repeated c = [] ↔
    ∀ r, c.selects r = true → l.present.contains r = false ∧ l.removed.get? r ≠ some c.direction := by
  simp only [List.eq_nil_iff_forall_not_mem, mem_selected, mem_repeated, ← forall_and]
  refine forall_congr' fun r => ?_
  cases c.selects r <;> simp

/-- What a clearing answers and leaves behind. -/
structure Settles (l : Ledger) (c : Clearing) (answer : Bool) (m : Ledger) : Prop where
  split : m.Split
  sides : ∀ r, m.OnSide r ↔ l.OnSide r
  unselected : ∀ r, c.selects r = false →
    m.present.contains r = l.present.contains r ∧ m.removed.get? r = l.removed.get? r
  otherSide : ∀ r d, l.removed.get? r = some d → d ≠ c.direction → m.removed.get? r = some d
  back : ∀ r, c.selects r = true → l.removed.get? r = some c.direction → m.present.contains r = true
  conflicts : m.conflicts = l.conflicts + (m.selected c).length
  answer : answer = true ↔
    (∀ r, c.selects r = true → l.present.contains r = false ∧ l.removed.get? r ≠ some c.direction) ∨
      ∃ r, c.selects r = true ∧ l.present.contains r = true ∧ m.removed.contains r = true

/-- Whichever records share their triples, the books balance after a clearing: the sides stay apart and keep all their
records, only selected records move, those removed from the same side before come back, and each selected record that
is present in the end is one conflict. -/
theorem clear_settles (split : l.Split) (c : Clearing) : l.Settles c (l.clear c).1 (l.clear c).2 := by
  have scheduled : l.moved c ≠ [] ↔
      ∃ r, c.selects r = true ∧ l.present.contains r = true ∧ (l.clear c).2.removed.contains r = true := by
    rw [ne_eq, List.eq_nil_iff_forall_not_mem, not_forall]
    simp only [not_not, split.mem_moved_iff]
  refine ⟨split.clear c, fun r => onSide_clear, fun r unselected => ?_, fun r d => split.get?_removed_clear_of_ne,
    fun r selects removed => ?_, ?_, ?_⟩
  · exact ⟨contains_present_clear_of_not_selects unselected, get?_removed_clear_of_not_selects unselected⟩
  · exact (clear_present l c r).mpr (.inr (.inr (mem_repeated.mpr ⟨removed, selects⟩)))
  · rw [clear_conflicts, split.length_selected_clear, Nat.add_assoc]
  · rw [clear_answer, nothing_selected_iff, scheduled]

def ratingOf (film : UInt64) : EdgeRecord := ⟨⟨1⟩, "RATED", ⟨film⟩, ⟨"User"⟩, ⟨"Film"⟩, none⟩

/-- Film 3 has cleared its rating, one of two parallel ratings of film 2 is scheduled, and film 4 is newly rated. -/
def halfCleared : Ledger :=
  empty.after [.register (ratingOf 3), .clear (.incoming ⟨3⟩ "RATED" ⟨"User"⟩ false), .register (rating 7),
    .register (rating 8), .clear unrate, .register (ratingOf 4)]

theorem halfCleared_settles : halfCleared.Split ∧ halfCleared.Settles unrate true (halfCleared.clear unrate).2 ∧
    halfCleared.conflicts = 1 ∧ (halfCleared.clear unrate).2.conflicts = 3 ∧
    (halfCleared.clear unrate).2.present.toList = [rating 7, rating 8] ∧
    (halfCleared.clear unrate).2.removed.entries = [(ratingOf 3, .incoming), (ratingOf 4, .outgoing)] := by
  have split : halfCleared.Split := split_empty.after _
  have answer : (halfCleared.clear unrate).1 = true := by decide
  have settles := clear_settles split unrate
  rw [answer] at settles
  exact ⟨split, settles, by decide, by decide, by decide, by decide⟩

end GraphWrites.Ledger
