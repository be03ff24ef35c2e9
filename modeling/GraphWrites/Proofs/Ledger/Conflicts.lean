import GraphWrites.Proofs.Ledger.Sides

namespace GraphWrites.Ledger

def Preceded (l : Ledger) (c : Clearing) (r : EdgeRecord) : Prop :=
  (∃ s, l.removed.get? s = some c.direction ∧ s.triple = r.triple) ∨
    ∃ s ∈ l.selected c, compare s r = .lt ∧ s.triple = r.triple

theorem selected_ascending (l : Ledger) (c : Clearing) : (l.selected c).Pairwise fun a b => compare a b = .lt :=
  (SortedMap.keys_ascending l.present).filter _

theorem sift_snd_sublist (taken : Triple → Bool) (rs : List EdgeRecord) : (sift taken rs).2.Sublist rs := by
  induction rs generalizing taken with
  | nil => exact .slnil
  | cons r rs ih =>
    unfold sift
    split
    · exact (ih taken).cons_cons r
    · exact (ih _).cons r

theorem mem_sift_snd {taken : Triple → Bool} {rs : List EdgeRecord} (ascending : rs.Pairwise fun a b => compare a b = .lt)
    {r : EdgeRecord} : r ∈ (sift taken rs).2 ↔
      r ∈ rs ∧ (taken r.triple = true ∨ ∃ s ∈ rs, compare s r = .lt ∧ s.triple = r.triple) := by
  -- `taken` grows by the triple of each record that is scheduled, and the records behind it are larger
  induction rs generalizing taken with
  | nil => simp [sift]
  | cons q rs ih =>
    obtain ⟨least, ascending⟩ := List.pairwise_cons.mp ascending
    have smallest : ∀ s ∈ q :: rs, compare s q ≠ .lt := by
      intro s member below
      rcases List.mem_cons.mp member with rfl | member
      · simp [Std.ReflCmp.compare_self] at below
      · have := Std.TransCmp.lt_trans below (least s member)
        simp [Std.ReflCmp.compare_self] at this
    unfold sift
    split
    · rename_i here
      rw [List.mem_cons, ih ascending, List.mem_cons]
      apply Iff.intro
      · intro h
        rcases h with rfl | ⟨member, before | ⟨s, inside, below, same⟩⟩
        · exact ⟨.inl rfl, .inl here⟩
        · exact ⟨.inr member, .inl before⟩
        · exact ⟨.inr member, .inr ⟨s, List.mem_cons_of_mem _ inside, below, same⟩⟩
      · intro h
        obtain ⟨rfl | member, before | ⟨s, inside, below, same⟩⟩ := h
        · exact .inl rfl
        · exact .inl rfl
        · exact .inr ⟨member, .inl before⟩
        · rcases List.mem_cons.mp inside with rfl | inside
          · exact .inr ⟨member, .inl (same ▸ here)⟩
          · exact .inr ⟨member, .inr ⟨s, inside, below, same⟩⟩
    · rename_i here
      rw [ih ascending, List.mem_cons, Bool.or_eq_true, beq_iff_eq]
      apply Iff.intro
      · intro h
        obtain ⟨member, (before | same) | ⟨s, inside, below, same⟩⟩ := h
        · exact ⟨.inr member, .inl before⟩
        · exact ⟨.inr member, .inr ⟨q, List.mem_cons_self, least r member, same.symm⟩⟩
        · exact ⟨.inr member, .inr ⟨s, List.mem_cons_of_mem _ inside, below, same⟩⟩
      · intro h
        obtain ⟨rfl | member, before | ⟨s, inside, below, same⟩⟩ := h
        · exact absurd before here
        · exact absurd below (smallest s inside)
        · exact ⟨member, .inl (.inl before)⟩
        · rcases List.mem_cons.mp inside with rfl | inside
          · exact ⟨member, .inl (.inr same.symm)⟩
          · exact ⟨member, .inr ⟨s, inside, below, same⟩⟩

variable {l : Ledger} {c : Clearing}

theorem mem_kept_iff {r : EdgeRecord} : r ∈ l.kept c ↔ r ∈ l.selected c ∧ l.Preceded c r := by
  rw [kept, mem_sift_snd (l.selected_ascending c), removedFrom_iff]
  rfl

theorem preceded_of_mem_repeated {r : EdgeRecord} (again : r ∈ l.repeated c) : l.Preceded c r :=
  .inl ⟨r, (mem_repeated.mp again).1, rfl⟩

theorem clear_keeps_iff {r : EdgeRecord} (selected : r ∈ l.selected c) :
    (l.clear c).2.present.contains r = true ↔ l.Preceded c r := by
  have selects := (mem_selected.mp selected).2
  rw [clear_present, mem_kept_iff]
  apply Iff.intro
  · intro h
    rcases h with ⟨-, unselected⟩ | ⟨-, preceded⟩ | again
    · rw [selects] at unselected
      cases unselected
    · exact preceded
    · exact preceded_of_mem_repeated again
  · intro preceded
    exact .inr (.inl ⟨selected, preceded⟩)

theorem clear_schedules {r : EdgeRecord} (selected : r ∈ l.selected c) (first : ¬l.Preceded c r) :
    (l.clear c).2.removed.get? r = some c.direction := by
  have moved : r ∈ l.moved c := by
    rcases mem_selected_iff_moved_or_kept.mp selected with moved | kept
    · exact moved
    · exact absurd (mem_kept_iff.mp kept).2 first
  have new : r ∉ l.repeated c := fun again => first (preceded_of_mem_repeated again)
  rw [clear_removed, if_neg new, if_pos moved]

theorem length_kept (l : Ledger) (c : Clearing) :
    (l.kept c).length = ((l.selected c).filter (l.clear c).2.present.contains).length := by
  have distinct := l.selected_nodup c
  have once : (l.kept c).Nodup := distinct.sublist (sift_snd_sublist _ _)
  apply List.Perm.length_eq
  refine (List.perm_ext_iff_of_nodup once (distinct.filter _)).mpr fun r => ?_
  rw [List.mem_filter, mem_kept_iff]
  exact and_congr_right fun selected => (clear_keeps_iff selected).symm

/-- A clearing keeps exactly the selected records that are preceded and schedules the others from its side. Each
record it keeps and each record it brings back is one conflict. As long as no two selected records share a triple, only
earlier removals from its side are conflicts, and without removals there are none. -/
theorem clear_keeps_exactly_preceded (l : Ledger) (c : Clearing) :
    (∀ r ∈ l.selected c, (l.clear c).2.present.contains r = true ↔ l.Preceded c r) ∧
      (∀ r ∈ l.selected c, ¬l.Preceded c r → (l.clear c).2.removed.get? r = some c.direction) ∧
      (l.clear c).2.conflicts = l.conflicts + ((l.selected c).filter (l.clear c).2.present.contains).length +
        (l.repeated c).length ∧
      ((∀ r ∈ l.selected c, ∀ s ∈ l.selected c, r.triple = s.triple → r = s) →
        (∀ r ∈ l.selected c, (l.clear c).2.present.contains r = true →
          ∃ s, l.removed.get? s = some c.direction ∧ s.triple = r.triple) ∧
        (l.removed = ∅ → (l.clear c).2.conflicts = l.conflicts ∧
          ∀ r ∈ l.selected c, (l.clear c).2.removed.get? r = some c.direction)) := by
  have counted := length_kept l c
  have conflicts := l.clear_conflicts c
  rw [counted] at conflicts
  refine ⟨fun r => clear_keeps_iff, fun r => clear_schedules, conflicts, fun distinct => ?_⟩
  -- among distinct triples no selected record precedes another
  have earlier : ∀ r ∈ l.selected c, l.Preceded c r →
      ∃ s, l.removed.get? s = some c.direction ∧ s.triple = r.triple := by
    intro r selected preceded
    rcases preceded with before | ⟨s, member, below, same⟩
    · exact before
    · rw [distinct s member r selected same] at below
      simp [Std.ReflCmp.compare_self] at below
  refine ⟨fun r selected stays => earlier r selected ((clear_keeps_iff selected).mp stays), fun nothing => ?_⟩
  have first : ∀ r ∈ l.selected c, ¬l.Preceded c r := by
    intro r selected preceded
    obtain ⟨s, removed, -⟩ := earlier r selected preceded
    rw [nothing] at removed
    cases removed
  have none : (l.selected c).filter (l.clear c).2.present.contains = [] := by
    refine List.filter_eq_nil_iff.mpr fun r selected stays => ?_
    exact first r selected ((clear_keeps_iff selected).mp stays)
  have new : l.repeated c = [] := by
    rw [repeated, nothing]
    rfl
  rw [none, new] at conflicts
  exact ⟨conflicts, fun r selected => clear_schedules selected (first r selected)⟩

def unrate : Clearing := .outgoing ⟨1⟩ "RATED" ⟨"Film"⟩

theorem ratings_cleared_twice :
    let l := empty.after [.register (rating 7), .register (rating 8), .clear unrate]
    (l.clear unrate).2.present.contains (rating 8) = true ∧ (l.clear unrate).2.conflicts = 3 := by
  intro l
  have selected : rating 8 ∈ l.selected unrate := by decide
  have preceded : l.Preceded unrate (rating 8) := .inl ⟨rating 7, by decide, rfl⟩
  obtain ⟨keeps, -, conflicts, -⟩ := clear_keeps_exactly_preceded l unrate
  refine ⟨(keeps _ selected).mpr preceded, ?_⟩
  rw [conflicts]
  decide

/-- Nothing is removed when two parallel ratings are cleared for the first time, and yet one of them is kept and
counts as a conflict. -/
theorem parallel_rating_kept :
    let l := empty.after [.register (rating 7), .register (rating 8)]
    l.removed = ∅ ∧ rating 8 ∈ l.selected unrate ∧ (l.clear unrate).2.present.contains (rating 8) = true ∧
      (l.clear unrate).2.removed.contains (rating 8) = false ∧ (l.clear unrate).2.conflicts = 1 := by
  decide

end GraphWrites.Ledger
