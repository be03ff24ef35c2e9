import GraphWrites.Proofs.SortedMap
import GraphWrites.Variable.Supply

namespace GraphWrites

namespace SortedSet

universe u

variable {α : Type u} [Ord α] [Std.LawfulEqOrd α]

theorem contains_of_min? {s : SortedSet α} {x : α} (least : s.min? = some x) : s.contains x = true := by
  rw [min?] at least
  obtain ⟨e, head, rfl⟩ := Option.map_eq_some_iff.mp least
  exact SortedMap.contains_iff.mpr ⟨e.2, SortedMap.get?_eq_some_iff.mpr (List.mem_of_head? head)⟩

theorem contains_of_min?_eq_none {s : SortedSet α} (none : s.min? = none) (x : α) : s.contains x = false := by
  rw [min?, Option.map_eq_none_iff, List.head?_eq_none_iff] at none
  exact SortedMap.contains_eq_false_iff.mpr (SortedMap.isEmpty_iff.mp (by simp [SortedMap.isEmpty, none]) x)

end SortedSet

namespace Supply

/-- Variables that wait in the pool or are retired have been taken before, none is both, and all others that
have been taken are live. -/
structure Sound (s : Supply) : Prop where
  pooled : ∀ v, s.pooled.contains v = true → v.index < s.fresh
  retired : ∀ v, s.retired.contains v = true → v.index < s.fresh
  apart : ∀ v, s.pooled.contains v = true → s.retired.contains v = false
  count : s.live + s.pooled.size + s.retired.size = s.fresh

theorem isOutstanding_iff {s : Supply} {v : Variable} : s.isOutstanding v = true ↔
    v.index < s.fresh ∧ s.pooled.contains v = false ∧ s.retired.contains v = false := by
  simp [isOutstanding, and_assoc]

theorem new_sound (capacity : Nat) : (new capacity).Sound := by
  refine ⟨?_, ?_, ?_, rfl⟩
  all_goals
    intro v waiting
    cases waiting

theorem Sound.rebind {s : Supply} (sound : s.Sound) (bound : SortedMap NodeId Variable) :
    ({ s with bound } : Supply).Sound :=
  ⟨sound.pooled, sound.retired, sound.apart, sound.count⟩

theorem isOutstanding_new (capacity : Nat) (v : Variable) : (new capacity).isOutstanding v = false := rfl

theorem take_eq (s : Supply) :
    (∃ v, s.pooled.min? = some v ∧ s.take = (v, { s with pooled := s.pooled.erase v, live := s.live + 1 })) ∨
      s.pooled.min? = none ∧ s.take = (⟨s.fresh⟩, { s with fresh := s.fresh + 1, live := s.live + 1 }) := by
  unfold take
  cases least : s.pooled.min? with
  | none => exact .inr ⟨rfl, rfl⟩
  | some v => exact .inl ⟨v, rfl, rfl⟩

@[simp]
theorem bound_take (s : Supply) : s.take.2.bound = s.bound := by
  rcases s.take_eq with ⟨v, -, taken⟩ | ⟨-, taken⟩ <;> rw [taken]

@[simp]
theorem live_take (s : Supply) : s.take.2.live = s.live + 1 := by
  rcases s.take_eq with ⟨v, -, taken⟩ | ⟨-, taken⟩ <;> rw [taken]

theorem Sound.take {s : Supply} (sound : s.Sound) : s.take.2.Sound := by
  have count := sound.count
  rcases s.take_eq with ⟨v, least, taken⟩ | ⟨-, taken⟩
  · rw [taken]
    have size := SortedMap.size_erase_of_contains (SortedSet.contains_of_min? least)
    have smaller : ∀ w, (s.pooled.erase v).contains w = true → s.pooled.contains w = true := by
      intro w waiting
      rw [SortedMap.contains_erase, Bool.and_eq_true] at waiting
      exact waiting.2
    refine ⟨fun w h => sound.pooled w (smaller w h), sound.retired, fun w h => sound.apart w (smaller w h), ?_⟩
    dsimp only
    omega
  · rw [taken]
    refine ⟨fun w h => Nat.lt_succ_of_lt (sound.pooled w h), fun w h => Nat.lt_succ_of_lt (sound.retired w h),
      sound.apart, ?_⟩
    dsimp only
    omega

theorem isOutstanding_take_self (s : Supply) : s.isOutstanding s.take.1 = false := by
  rw [Bool.eq_false_iff]
  intro outstanding
  obtain ⟨below, unpooled, -⟩ := isOutstanding_iff.mp outstanding
  rcases s.take_eq with ⟨v, least, taken⟩ | ⟨-, taken⟩
  · rw [taken, SortedSet.contains_of_min? least] at unpooled
    cases unpooled
  · rw [taken] at below
    exact Nat.lt_irrefl _ below

theorem isOutstanding_take {s : Supply} (sound : s.Sound) (v : Variable) :
    s.take.2.isOutstanding v = true ↔ v = s.take.1 ∨ s.isOutstanding v = true := by
  rcases s.take_eq with ⟨w, least, taken⟩ | ⟨empty, taken⟩
  · have pooled := SortedSet.contains_of_min? least
    simp only [taken, isOutstanding_iff, SortedMap.contains_erase, Bool.and_eq_false_iff, decide_eq_false_iff_not,
      not_not]
    apply Iff.intro
    · intro h
      obtain ⟨below, rfl | unpooled, unretired⟩ := h
      · exact .inl rfl
      · exact .inr ⟨below, unpooled, unretired⟩
    · intro h
      rcases h with rfl | ⟨below, unpooled, unretired⟩
      · exact ⟨sound.pooled v pooled, .inl rfl, sound.apart v pooled⟩
      · exact ⟨below, .inr unpooled, unretired⟩
  · have next : v = ⟨s.fresh⟩ ↔ v.index = s.fresh := by
      cases v
      simp only [Variable.mk.injEq]
    have unpooled := SortedSet.contains_of_min?_eq_none empty v
    simp only [taken, isOutstanding_iff, next, unpooled, true_and]
    have unretired : v.index = s.fresh → s.retired.contains v = false := by
      intro here
      rw [Bool.eq_false_iff]
      intro retired
      have := sound.retired v retired
      omega
    apply Iff.intro
    · intro h
      obtain ⟨below, free⟩ := h
      by_cases here : v.index = s.fresh
      · exact .inl here
      · exact .inr ⟨by omega, free⟩
    · intro h
      rcases h with here | ⟨below, free⟩
      · exact ⟨by omega, unretired here⟩
      · exact ⟨by omega, free⟩

def taken (s : Supply) : List Variable := (List.range s.fresh).map Variable.mk

def outstanding (s : Supply) : List Variable := s.taken.filter s.isOutstanding

theorem mem_taken {s : Supply} {v : Variable} : v ∈ s.taken ↔ v.index < s.fresh := by
  simp only [taken, List.mem_map, List.mem_range]
  apply Iff.intro
  · intro h
    obtain ⟨n, below, rfl⟩ := h
    exact below
  · intro below
    exact ⟨v.index, below, rfl⟩

theorem taken_nodup (s : Supply) : s.taken.Nodup := by
  refine List.nodup_range.map ?_
  intro m n same
  exact congrArg Variable.index same

theorem mem_outstanding {s : Supply} {v : Variable} : v ∈ s.outstanding ↔ s.isOutstanding v = true := by
  rw [outstanding, List.mem_filter, mem_taken, and_iff_right_iff_imp]
  intro out
  exact (isOutstanding_iff.mp out).1

theorem outstanding_nodup (s : Supply) : s.outstanding.Nodup := s.taken_nodup.filter _

theorem Sound.taken_perm {s : Supply} (sound : s.Sound) :
    (s.outstanding ++ (s.pooled.toList ++ s.retired.toList)).Perm s.taken := by
  have waiting : (s.pooled.toList ++ s.retired.toList).Nodup := by
    refine List.nodup_append.mpr ⟨SortedSet.toList_nodup _, SortedSet.toList_nodup _, ?_⟩
    intro v pooled w retired same
    rw [SortedSet.mem_toList] at pooled retired
    rw [← same, sound.apart v pooled] at retired
    cases retired
  have distinct : (s.outstanding ++ (s.pooled.toList ++ s.retired.toList)).Nodup := by
    refine List.nodup_append.mpr ⟨s.outstanding_nodup, waiting, ?_⟩
    intro v out w waits same
    obtain ⟨-, unpooled, unretired⟩ := isOutstanding_iff.mp (mem_outstanding.mp out)
    rw [← same, List.mem_append, SortedSet.mem_toList, SortedSet.mem_toList, unpooled, unretired] at waits
    simp at waits
  refine (List.perm_ext_iff_of_nodup distinct s.taken_nodup).mpr fun v => ?_
  simp only [List.mem_append, mem_outstanding, isOutstanding_iff, SortedSet.mem_toList, mem_taken]
  cases waits : s.pooled.contains v with
  | true => simp [sound.pooled v waits]
  | false =>
    cases lost : s.retired.contains v with
    | true => simp [sound.retired v lost]
    | false => simp

theorem Sound.live_eq {s : Supply} (sound : s.Sound) : s.live = s.outstanding.length := by
  have lengths := sound.taken_perm.length_eq
  have count := sound.count
  simp only [taken, SortedSet.toList, List.length_append, List.length_map, List.length_range,
    ← SortedMap.size_eq_length_keys] at lengths
  omega

theorem Sound.live_eq_length {s : Supply} (sound : s.Sound) {vs : List Variable} (distinct : vs.Nodup)
    (all : ∀ v, v ∈ vs ↔ s.isOutstanding v = true) : s.live = vs.length := by
  have same : s.outstanding.Perm vs :=
    (List.perm_ext_iff_of_nodup s.outstanding_nodup distinct).mpr fun v => by rw [mem_outstanding, all]
  rw [sound.live_eq, same.length_eq]

theorem Sound.live_pos {s : Supply} (sound : s.Sound) {v : Variable} (out : s.isOutstanding v = true) : 0 < s.live := by
  rw [sound.live_eq]
  exact List.length_pos_of_mem (mem_outstanding.mpr out)

theorem release_of_not_outstanding {s : Supply} {v : Variable} (free : s.isOutstanding v = false) :
    s.release v = (false, s) := by
  unfold release
  rw [if_neg (by simp [free])]

theorem release_eq {s : Supply} {v : Variable} (outstanding : s.isOutstanding v = true) :
    s.release v = (true,
      if s.pooled.size < s.capacity then
        { s with bound := s.bound.filter fun _ w => w != v, live := s.live - 1, pooled := s.pooled.insert v }
      else { s with bound := s.bound.filter fun _ w => w != v, live := s.live - 1, retired := s.retired.insert v }) := by
  unfold release
  rw [if_pos outstanding]
  dsimp only
  split <;> rfl

theorem Sound.release {s : Supply} (sound : s.Sound) (v : Variable) : (s.release v).2.Sound := by
  cases outstanding : s.isOutstanding v with
  | false => rwa [release_of_not_outstanding outstanding]
  | true =>
    obtain ⟨below, unpooled, unretired⟩ := isOutstanding_iff.mp outstanding
    have some := sound.live_pos outstanding
    have count := sound.count
    rw [release_eq outstanding]
    dsimp only
    split
    · have size : (s.pooled.insert v).size = _ := SortedMap.size_insert_of_absent () unpooled
      refine ⟨?_, sound.retired, ?_, by dsimp only; omega⟩
      all_goals
        intro w waiting
        rw [SortedSet.contains_insert, Bool.or_eq_true, decide_eq_true_eq] at waiting
        rcases waiting with rfl | waiting
      · exact below
      · exact sound.pooled w waiting
      · exact unretired
      · exact sound.apart w waiting
    · have size : (s.retired.insert v).size = _ := SortedMap.size_insert_of_absent () unretired
      refine ⟨sound.pooled, ?_, ?_, by dsimp only; omega⟩
      · intro w waiting
        rw [SortedSet.contains_insert, Bool.or_eq_true, decide_eq_true_eq] at waiting
        rcases waiting with rfl | waiting
        · exact below
        · exact sound.retired w waiting
      · intro w waiting
        rw [SortedSet.contains_insert, sound.apart w waiting, Bool.or_false, decide_eq_false_iff_not]
        intro same
        subst same
        rw [unpooled] at waiting
        cases waiting

theorem isOutstanding_release (s : Supply) (v w : Variable) :
    (s.release v).2.isOutstanding w = (decide (w ≠ v) && s.isOutstanding w) := by
  cases outstanding : s.isOutstanding v with
  | false =>
    rw [release_of_not_outstanding outstanding]
    by_cases here : w = v
    · simp [here, outstanding]
    · simp [here]
  | true =>
    rw [release_eq outstanding]
    dsimp only
    split <;> by_cases here : w = v <;> simp [isOutstanding, SortedSet.contains_insert, here]

theorem get?_bound_release (s : Supply) (v : Variable) (n : NodeId) :
    (s.release v).2.bound.get? n = (s.bound.get? n).filter fun w => !(decide (w = v) && s.isOutstanding w) := by
  cases outstanding : s.isOutstanding v with
  | false =>
    rw [release_of_not_outstanding outstanding]
    cases s.bound.get? n with
    | none => rfl
    | some w => by_cases here : w = v <;> simp [Option.filter, here, outstanding]
  | true =>
    have kept : (s.release v).2.bound = s.bound.filter fun _ w => w != v := by
      rw [release_eq outstanding]
      dsimp only
      split <;> rfl
    rw [kept, SortedMap.get?_filter]
    congr 1
    funext w
    by_cases here : w = v <;> simp [here, outstanding]

theorem Sound.releaseAll {s : Supply} (sound : s.Sound) (vs : List Variable) : (s.releaseAll vs).Sound := by
  induction vs generalizing s with
  | nil => exact sound
  | cons v vs ih => exact ih (sound.release v)

theorem isOutstanding_releaseAll (s : Supply) (vs : List Variable) (w : Variable) :
    (s.releaseAll vs).isOutstanding w = (decide (w ∉ vs) && s.isOutstanding w) := by
  induction vs generalizing s with
  | nil => simp [releaseAll]
  | cons v vs ih =>
    rw [releaseAll, List.foldl_cons, ← releaseAll, ih, isOutstanding_release]
    by_cases here : w = v <;> simp [here]

theorem get?_bound_releaseAll (s : Supply) (vs : List Variable) (n : NodeId) :
    (s.releaseAll vs).bound.get? n = (s.bound.get? n).filter fun w => !(decide (w ∈ vs) && s.isOutstanding w) := by
  induction vs generalizing s with
  | nil => cases found : s.bound.get? n <;> simp [releaseAll, found, Option.filter]
  | cons v vs ih =>
    rw [releaseAll, List.foldl_cons, ← releaseAll, ih, get?_bound_release, Option.filter_filter]
    congr 1
    funext w
    rw [isOutstanding_release]
    by_cases here : w = v <;> cases s.isOutstanding w <;> simp [here]

structure Takes (s t : Supply) (vs : List Variable) : Prop where
  sound : t.Sound
  free : ∀ v ∈ vs, s.isOutstanding v = false
  distinct : vs.Nodup
  outstanding : ∀ w, t.isOutstanding w = true ↔ w ∈ vs ∨ s.isOutstanding w = true

theorem takes_one {s : Supply} (sound : s.Sound) : Takes s s.take.2 [s.take.1] where
  sound := sound.take
  free v member := List.mem_singleton.mp member ▸ s.isOutstanding_take_self
  distinct := List.nodup_singleton _
  outstanding w := by rw [isOutstanding_take sound, List.mem_singleton]

theorem takes_two {s : Supply} (sound : s.Sound) :
    Takes s s.take.2.take.2 [s.take.1, s.take.2.take.1] := by
  have first := takes_one sound
  have second := takes_one sound.take
  -- the second variable is free in the supply that already lacks the first
  have unused := s.take.2.isOutstanding_take_self
  have differ : s.take.1 ≠ s.take.2.take.1 := by
    intro same
    rw [← same, (first.outstanding _).mpr (.inl List.mem_cons_self)] at unused
    cases unused
  refine ⟨second.sound, ?_, by simpa using differ, ?_⟩
  · intro v member
    rcases List.mem_pair.mp member with rfl | rfl
    · exact s.isOutstanding_take_self
    · rw [Bool.eq_false_iff] at unused ⊢
      exact fun before => unused ((first.outstanding _).mpr (.inr before))
  · intro w
    rw [second.outstanding, first.outstanding]
    simp only [List.mem_cons, List.not_mem_nil, or_false]
    tauto

end Supply

end GraphWrites
