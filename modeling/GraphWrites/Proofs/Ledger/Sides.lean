import GraphWrites.Proofs.Ledger.Standing

namespace GraphWrites.Ledger

def OnSide (l : Ledger) (r : EdgeRecord) : Prop := l.present.contains r = true ∨ l.removed.contains r = true

/-- No record is present and removed at once. -/
def Split (l : Ledger) : Prop := ∀ r, l.present.contains r = true → l.removed.contains r = false

theorem mem_sift {taken : Triple → Bool} {rs : List EdgeRecord} {r : EdgeRecord} :
    r ∈ rs ↔ r ∈ (sift taken rs).1 ∨ r ∈ (sift taken rs).2 := by
  induction rs generalizing taken with
  | nil => simp [sift]
  | cons s rs ih =>
    unfold sift
    split
    · have rest := @ih taken
      rw [List.mem_cons, List.mem_cons, rest, or_left_comm]
    · have rest := @ih fun t => taken t || t == s.triple
      rw [List.mem_cons, List.mem_cons, rest, or_assoc]

theorem sift_disjoint {taken : Triple → Bool} {rs : List EdgeRecord} (distinct : rs.Nodup) {r : EdgeRecord}
    (moved : r ∈ (sift taken rs).1) : r ∉ (sift taken rs).2 := by
  induction rs generalizing taken with
  | nil => cases moved
  | cons s rs ih =>
    obtain ⟨once, distinct⟩ := List.nodup_cons.mp distinct
    unfold sift at moved ⊢
    split at moved
    · rename_i here
      rw [if_pos here]
      intro kept
      rcases List.mem_cons.mp kept with rfl | kept
      · exact once (mem_sift.mpr (.inl moved))
      · exact ih distinct moved kept
    · rename_i here
      rw [if_neg here]
      intro kept
      rcases List.mem_cons.mp moved with rfl | moved
      · exact once (mem_sift.mpr (.inr kept))
      · exact ih distinct moved kept

theorem mem_selected_iff_moved_or_kept {l : Ledger} {c : Clearing} {r : EdgeRecord} :
    r ∈ l.selected c ↔ r ∈ l.moved c ∨ r ∈ l.kept c := mem_sift

theorem not_mem_kept_of_mem_moved {l : Ledger} {c : Clearing} {r : EdgeRecord} (moved : r ∈ l.moved c) :
    r ∉ l.kept c := sift_disjoint (l.selected_nodup c) moved

theorem present_of_mem_moved {l : Ledger} {c : Clearing} {r : EdgeRecord} (moved : r ∈ l.moved c) :
    l.present.contains r = true ∧ c.selects r = true :=
  mem_selected.mp (mem_selected_iff_moved_or_kept.mpr (.inl moved))

theorem present_of_mem_kept {l : Ledger} {c : Clearing} {r : EdgeRecord} (kept : r ∈ l.kept c) :
    l.present.contains r = true ∧ c.selects r = true :=
  mem_selected.mp (mem_selected_iff_moved_or_kept.mpr (.inr kept))

theorem clear_contains_removed (l : Ledger) (c : Clearing) (r : EdgeRecord) :
    (l.clear c).2.removed.contains r = true ↔
      r ∉ l.repeated c ∧ (r ∈ l.moved c ∨ l.removed.contains r = true) := by
  rw [SortedMap.contains, clear_removed]
  by_cases again : r ∈ l.repeated c
  · simp [again]
  · by_cases moved : r ∈ l.moved c <;> simp [again, moved, SortedMap.contains]

theorem Split.clear {l : Ledger} (split : l.Split) (c : Clearing) : (l.clear c).2.Split := by
  intro r here
  rw [Bool.eq_false_iff]
  intro there
  obtain ⟨fresh, there⟩ := (clear_contains_removed l c r).mp there
  rcases (clear_present l c r).mp here with ⟨present, unselected⟩ | kept | again
  · rcases there with moved | removed
    · have selected := (present_of_mem_moved moved).2
      rw [unselected] at selected
      cases selected
    · rw [split r present] at removed
      cases removed
  · rcases there with moved | removed
    · exact not_mem_kept_of_mem_moved moved kept
    · rw [split r (present_of_mem_kept kept).1] at removed
      cases removed
  · exact fresh again

theorem onSide_clear {l : Ledger} {c : Clearing} {r : EdgeRecord} : (l.clear c).2.OnSide r ↔ l.OnSide r := by
  unfold OnSide
  rw [clear_present, clear_contains_removed]
  apply Iff.intro
  · intro h
    rcases h with (⟨present, -⟩ | kept | again) | ⟨-, moved | removed⟩
    · exact .inl present
    · exact .inl (present_of_mem_kept kept).1
    · exact .inr (SortedMap.contains_iff.mpr ⟨_, (mem_repeated.mp again).1⟩)
    · exact .inl (present_of_mem_moved moved).1
    · exact .inr removed
  · intro h
    by_cases again : r ∈ l.repeated c
    · exact .inl (.inr (.inr again))
    · rcases h with present | removed
      · by_cases selects : c.selects r = true
        · rcases mem_selected_iff_moved_or_kept.mp (mem_selected.mpr ⟨present, selects⟩) with moved | kept
          · exact .inr ⟨again, .inl moved⟩
          · exact .inl (.inr (.inl kept))
        · exact .inl (.inl ⟨present, Bool.eq_false_iff.mpr selects⟩)
      · exact .inr ⟨again, .inr removed⟩

theorem contains_removed_register (l : Ledger) (q r : EdgeRecord) :
    (l.register q).removed.contains r = true ↔ l.removed.contains r = true ∧ r.triple ≠ q.triple := by
  simp only [register, SortedMap.contains_iff, SortedMap.get?_filter, Option.filter_eq_some_iff, bne_iff_ne,
    exists_and_right]

theorem contains_present_register (l : Ledger) (q r : EdgeRecord) :
    (l.register q).present.contains r = true ↔ r = q ∨ l.present.contains r = true := by
  simp [register, SortedSet.contains_insert]

theorem Split.register {l : Ledger} (split : l.Split) (q : EdgeRecord) : (l.register q).Split := by
  intro r here
  rw [Bool.eq_false_iff]
  intro there
  obtain ⟨removed, differ⟩ := (contains_removed_register l q r).mp there
  rcases (contains_present_register l q r).mp here with rfl | present
  · exact differ rfl
  · rw [split r present] at removed
    cases removed

theorem contains_present_forget (l : Ledger) (q r : EdgeRecord) :
    (l.forget q).2.present.contains r = true ↔ r ≠ q ∧ l.present.contains r = true := by
  simp [forget, SortedMap.contains_erase]

theorem Split.forget {l : Ledger} (split : l.Split) (q : EdgeRecord) : (l.forget q).2.Split := by
  intro r here
  exact split r ((contains_present_forget l q r).mp here).2

theorem onSide_register {l : Ledger} {q r : EdgeRecord} : (l.register q).OnSide r ↔
    r = q ∨ l.present.contains r = true ∨ l.removed.contains r = true ∧ r.triple ≠ q.triple := by
  unfold OnSide
  rw [contains_present_register, contains_removed_register, or_assoc]

theorem onSide_forget {l : Ledger} {q r : EdgeRecord} : (l.forget q).2.OnSide r ↔
    r ≠ q ∧ l.present.contains r = true ∨ l.removed.contains r = true := by
  unfold OnSide
  rw [contains_present_forget]
  rfl

theorem Split.apply {l : Ledger} (split : l.Split) (c : LedgerCall) : (l.apply c).2.Split := by
  cases c with
  | register q => exact split.register q
  | forget q => exact split.forget q
  | clear c => exact split.clear c

theorem Split.after {l : Ledger} (split : l.Split) (calls : List LedgerCall) : (l.after calls).Split := by
  induction calls generalizing l with
  | nil => exact split
  | cons c calls ih => exact ih (split.apply c)

theorem split_empty : empty.Split := by
  intro r here
  cases here

/-- Registering another record of the triple takes a removed record off its side. -/
def Displaces (r : EdgeRecord) (l : Ledger) : LedgerCall → Prop
  | .register q => q ≠ r ∧ q.triple = r.triple ∧ l.removed.contains r = true
  | _ => False

/-- No call of a history forgets a record where it is present. -/
def Unforgotten (r : EdgeRecord) : Ledger → List LedgerCall → Prop
  | _, [] => True
  | l, c :: calls => (c = .forget r → (l.forget r).1 = false) ∧ Unforgotten r (l.apply c).2 calls

/-- Where a call of a history displaces a record, a later one registers it again. -/
def Undisplaced (r : EdgeRecord) : Ledger → List LedgerCall → Prop
  | _, [] => True
  | l, c :: calls => (Displaces r l c → .register r ∈ calls) ∧ Undisplaced r (l.apply c).2 calls

theorem onSide_apply {l : Ledger} (split : l.Split) {r : EdgeRecord} {c : LedgerCall}
    (unforgotten : c = .forget r → (l.forget r).1 = false) :
    (l.apply c).2.OnSide r ↔ (l.OnSide r ∨ c = .register r) ∧ ¬Displaces r l c := by
  cases c with
  | register q =>
    have moved : ((l.apply (.register q)).2.OnSide r ↔ _) := onSide_register
    rw [moved]
    by_cases same : q = r
    · simp [Displaces, same]
    · have other : ¬r = q := fun h => same h.symm
      have apart : l.present.contains r = true → ¬l.removed.contains r = true := fun here => by
        simp [split r here]
      simp only [Displaces, OnSide, same, other, ne_eq, not_false_eq_true, true_and, LedgerCall.register.injEq,
        or_false, false_or, eq_comm (a := q.triple)]
      apply Iff.intro
      · intro h
        rcases h with present | ⟨removed, differ⟩
        · exact ⟨.inl present, fun displaced => apart present displaced.2⟩
        · exact ⟨.inr removed, fun displaced => differ displaced.1⟩
      · intro h
        obtain ⟨present | removed, kept⟩ := h
        · exact .inl present
        · exact .inr ⟨removed, fun here => kept ⟨here, removed⟩⟩
  | forget q =>
    have kept : ((l.apply (.forget q)).2.OnSide r ↔ _) := onSide_forget
    rw [kept]
    by_cases same : q = r
    · have absent : l.present.contains r = false := unforgotten (congrArg _ same)
      simp [Displaces, OnSide, same, absent]
    · have other : ¬r = q := fun h => same h.symm
      simp [Displaces, OnSide, other]
  | clear c =>
    have moved : ((l.apply (.clear c)).2.OnSide r ↔ _) := onSide_clear
    simp [moved, Displaces]

theorem onSide_after {l : Ledger} (split : l.Split) {r : EdgeRecord} {calls : List LedgerCall}
    (unforgotten : Unforgotten r l calls) :
    (l.after calls).OnSide r ↔ (l.OnSide r ∨ .register r ∈ calls) ∧ Undisplaced r l calls := by
  induction calls generalizing l with
  | nil => simp [after, Undisplaced]
  | cons c calls ih =>
    obtain ⟨first, rest⟩ := unforgotten
    have step := onSide_apply split first
    have later : (l.after (c :: calls)).OnSide r ↔ _ := ih (split.apply c) rest
    rw [later, step, Undisplaced, List.mem_cons, eq_comm (a := LedgerCall.register r)]
    by_cases again : LedgerCall.register r ∈ calls
    · simp [again]
    · simp only [again, or_false, imp_false]
      exact and_assoc

/-- After any history no record is both present and removed. A record that was registered, and not forgotten
since, is one of the two exactly if every registration of another record of its triple that found it removed
was followed by one of its own. -/
theorem on_one_side_iff_undisplaced {before later : List LedgerCall} {r : EdgeRecord}
    (unforgotten : Unforgotten r ((empty.after before).register r) later) :
    let l := empty.after (before ++ .register r :: later)
    (∀ s, ¬(l.present.contains s = true ∧ l.removed.contains s = true)) ∧
      (l.present.contains r = true ∨ l.removed.contains r = true ↔
        Undisplaced r ((empty.after before).register r) later) := by
  have split := split_empty.after before
  have registered : ((empty.after before).register r).OnSide r := onSide_register.mpr (.inl rfl)
  have history : empty.after (before ++ .register r :: later) = ((empty.after before).register r).after later :=
    List.foldl_append ..
  have kept := onSide_after (split.register r) unforgotten
  rw [or_iff_left_of_imp (fun _ => registered), and_iff_right registered] at kept
  intro l
  refine ⟨fun s => ?_, ?_⟩
  · intro both
    have here := split_empty.after (before ++ .register r :: later) s both.1
    rw [both.2] at here
    cases here
  · rw [← kept, ← history]
    rfl

def rating (id : UInt64) : EdgeRecord := ⟨⟨1⟩, "RATED", ⟨2⟩, ⟨"User"⟩, ⟨"Film"⟩, some ⟨id⟩⟩

theorem rating_registered_again :
    let l := empty.after [.register (rating 7), .clear (.outgoing ⟨1⟩ "RATED" ⟨"Film"⟩), .register (rating 8),
      .register (rating 7)]
    Undisplaced (rating 7) ((empty.after []).register (rating 7))
      [.clear (.outgoing ⟨1⟩ "RATED" ⟨"Film"⟩), .register (rating 8), .register (rating 7)] ∧
    (l.present.contains (rating 7) = true ∨ l.removed.contains (rating 7) = true) ∧
    ¬(l.present.contains (rating 8) = true ∧ l.removed.contains (rating 8) = true) := by
  have unforgotten : Unforgotten (rating 7) ((empty.after []).register (rating 7))
      [.clear (.outgoing ⟨1⟩ "RATED" ⟨"Film"⟩), .register (rating 8), .register (rating 7)] := by
    simp [Unforgotten]
  have undisplaced : Undisplaced (rating 7) ((empty.after []).register (rating 7))
      [.clear (.outgoing ⟨1⟩ "RATED" ⟨"Film"⟩), .register (rating 8), .register (rating 7)] := by
    simp [Undisplaced, Displaces]
  obtain ⟨never, kept⟩ := on_one_side_iff_undisplaced unforgotten
  exact ⟨undisplaced, kept.mpr undisplaced, never (rating 8)⟩

theorem removed_rating_displaced :
    let l := empty.after [.register (rating 7), .clear (.outgoing ⟨1⟩ "RATED" ⟨"Film"⟩), .register (rating 8)]
    Unforgotten (rating 7) ((empty.after []).register (rating 7))
      [.clear (.outgoing ⟨1⟩ "RATED" ⟨"Film"⟩), .register (rating 8)] ∧
    l.present.contains (rating 7) = false ∧ l.removed.contains (rating 7) = false := by
  refine ⟨by simp [Unforgotten], by decide, by decide⟩

end GraphWrites.Ledger
