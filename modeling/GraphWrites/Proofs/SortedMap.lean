import GraphWrites.SortedMap
import Mathlib.Data.List.Nodup
import Mathlib.Data.List.Perm.Basic

namespace GraphWrites

open Std

universe u v w

namespace SortedMap

variable {α : Type u} {β : Type v} {γ : Type w} [Ord α]

theorem contains_iff {m : SortedMap α β} {k : α} : m.contains k = true ↔ ∃ v, m.get? k = some v :=
  Option.isSome_iff_exists

theorem contains_eq_false_iff {m : SortedMap α β} {k : α} : m.contains k = false ↔ m.get? k = none := by
  simp [contains]

@[simp]
theorem contains_empty (k : α) : (∅ : SortedMap α β).contains k = false := rfl

@[simp]
theorem keys_empty : (∅ : SortedMap α β).keys = [] := rfl

theorem size_eq_length_keys (m : SortedMap α β) : m.size = m.keys.length := (List.length_map _).symm

theorem keys_ascending (m : SortedMap α β) : m.keys.Pairwise fun a b => compare a b = .lt :=
  List.pairwise_map.mpr m.ascending

theorem keys_mapValues (m : SortedMap α β) (f : α → β → γ) : (m.mapValues f).keys = m.keys := List.map_map

theorem values_mapValues (m : SortedMap α β) (f : β → γ) : (m.mapValues fun _ => f).values = m.values.map f := by
  rw [values, values, List.map_map]
  exact List.map_map

theorem isEmpty_mapValues (m : SortedMap α β) (f : α → β → γ) : (m.mapValues f).isEmpty = m.isEmpty := List.isEmpty_map

theorem filter_mapValues (m : SortedMap α β) (f : α → β → γ) (keep : α → γ → Bool) :
    (m.mapValues f).filter keep = (m.filter fun k v => keep k (f k v)).mapValues f :=
  SortedMap.ext List.filter_map

theorem erase_mapValues (m : SortedMap α β) (f : α → β → γ) (k : α) : (m.mapValues f).erase k = (m.erase k).mapValues f :=
  m.filter_mapValues f _

theorem mapValues_congr_keys {m : SortedMap α β} {n : SortedMap α γ} {δ : Type*} (f : α → δ) (same : m.keys = n.keys) :
    (m.mapValues fun k _ => f k) = n.mapValues fun k _ => f k := by
  have listed := congrArg (List.map fun k => (k, f k)) same
  rw [keys, keys, List.map_map, List.map_map] at listed
  exact SortedMap.ext listed

theorem bind_get?_eq_some_iff {σ : Type*} {f : β → Option γ} {x : γ} {form : σ → β} {P : σ → Prop}
    (only : ∀ v, f v = some x ↔ ∃ s, v = form s ∧ P s) {m : SortedMap α β} {k : α} :
    (m.get? k).bind f = some x ↔ ∃ s, m.get? k = some (form s) ∧ P s := by
  simp only [Option.bind_eq_some_iff, only]
  apply Iff.intro
  · intro h
    obtain ⟨_, found, s, rfl, holds⟩ := h
    exact ⟨s, found, holds⟩
  · intro h
    obtain ⟨s, found, holds⟩ := h
    exact ⟨_, found, s, rfl, holds⟩

variable [LawfulEqOrd α]

theorem mem_keys {m : SortedMap α β} {k : α} : k ∈ m.keys ↔ ∃ v, m.get? k = some v := by
  simp only [keys, List.mem_map, get?_eq_some_iff]
  apply Iff.intro
  · intro h
    obtain ⟨⟨x, v⟩, member, rfl⟩ := h
    exact ⟨v, member⟩
  · intro h
    obtain ⟨v, member⟩ := h
    exact ⟨(k, v), member, rfl⟩

theorem mem_keys_iff_contains {m : SortedMap α β} {k : α} : k ∈ m.keys ↔ m.contains k = true :=
  mem_keys.trans contains_iff.symm

theorem mem_values {m : SortedMap α β} {v : β} : v ∈ m.values ↔ ∃ k, m.get? k = some v := by
  simp only [values, List.mem_map, get?_eq_some_iff]
  apply Iff.intro
  · intro h
    obtain ⟨⟨k, x⟩, member, rfl⟩ := h
    exact ⟨k, member⟩
  · intro h
    obtain ⟨k, member⟩ := h
    exact ⟨(k, v), member, rfl⟩

theorem keys_nodup (m : SortedMap α β) : m.keys.Nodup := by
  refine m.keys_ascending.imp ?_
  intro a b below same
  subst same
  simp [ReflCmp.compare_self] at below

theorem isEmpty_iff {m : SortedMap α β} : m.isEmpty = true ↔ ∀ k, m.get? k = none := by
  simp only [isEmpty, List.isEmpty_iff, get?_eq_none_iff]
  apply Iff.intro
  · intro none k v member
    rw [none] at member
    cases member
  · intro none
    exact List.eq_nil_iff_forall_not_mem.mpr fun e => none e.1 e.2

theorem get?_filter (m : SortedMap α β) (keep : α → β → Bool) (k : α) :
    (m.filter keep).get? k = (m.get? k).filter (keep k) := by
  apply Option.ext
  intro v
  rw [get?_eq_some_iff, mem_entries_filter, ← get?_eq_some_iff]
  simp only [Option.filter_eq_some_iff]

theorem get?_erase [DecidableEq α] (m : SortedMap α β) (k x : α) :
    (m.erase k).get? x = if x = k then none else m.get? x := by
  split
  · rename_i same
    exact same ▸ get?_erase_self m k
  · rename_i differ
    exact get?_erase_of_ne m differ

theorem contains_erase [DecidableEq α] (m : SortedMap α β) (k x : α) :
    (m.erase k).contains x = (decide (x ≠ k) && m.contains x) := by
  by_cases same : x = k <;> simp [contains, get?_erase, same]

theorem size_erase_of_contains [DecidableEq α] {m : SortedMap α β} {k : α} (present : m.contains k = true) :
    (m.erase k).size + 1 = m.size := by
  have known : k ∈ m.keys := mem_keys_iff_contains.mpr present
  have same : (m.erase k).keys.Perm (m.keys.erase k) := by
    refine (List.perm_ext_iff_of_nodup (m.erase k).keys_nodup (m.keys_nodup.erase k)).mpr ?_
    intro x
    simp [mem_keys_iff_contains, contains_erase, m.keys_nodup.mem_erase_iff]
  have some := List.length_pos_of_mem known
  rw [size_eq_length_keys, size_eq_length_keys, same.length_eq, List.length_erase_of_mem known]
  omega

theorem get?_mapValues (m : SortedMap α β) (f : α → β → γ) (k : α) :
    (m.mapValues f).get? k = (m.get? k).map (f k) := by
  apply Option.ext
  intro w
  simp only [get?_eq_some_iff, Option.map_eq_some_iff, mapValues, List.mem_map, Prod.mk.injEq]
  apply Iff.intro
  · intro h
    obtain ⟨⟨x, v⟩, member, rfl, rfl⟩ := h
    exact ⟨v, member, rfl⟩
  · intro h
    obtain ⟨v, member, rfl⟩ := h
    exact ⟨(k, v), member, rfl, rfl⟩

theorem contains_mapValues (m : SortedMap α β) (f : α → β → γ) : (m.mapValues f).contains = m.contains := by
  funext k
  rw [contains, get?_mapValues, Option.isSome_map, contains]

theorem get?_modify [DecidableEq α] (m : SortedMap α β) (k x : α) (f : β → β) :
    (m.modify k f).get? x = if x = k then (m.get? x).map f else m.get? x := by
  rw [modify, get?_mapValues]
  by_cases same : x = k
  · subst same
    simp [ReflCmp.compare_self]
  · have differ : ¬compare k x = .eq := fun h => same (LawfulEqCmp.eq_of_compare h).symm
    simp [differ, same]

theorem contains_modify (m : SortedMap α β) (k : α) (f : β → β) : (m.modify k f).contains = m.contains :=
  m.contains_mapValues _

theorem map_get?_modify {f : β → γ} {g : β → β} (kept : ∀ v, f (g v) = f v) (m : SortedMap α β) (k x : α) :
    ((m.modify k g).get? x).map f = (m.get? x).map f := by
  classical
  rw [get?_modify]
  split
  · rw [Option.map_map]
    exact congrArg (fun h => (m.get? x).map h) (funext kept)
  · rfl

theorem bind_get?_modify {f : β → Option γ} {g : β → β} (kept : ∀ v, f (g v) = f v) (m : SortedMap α β) (k x : α) :
    ((m.modify k g).get? x).bind f = (m.get? x).bind f := by
  classical
  rw [get?_modify]
  split
  · rw [Option.bind_map]
    exact congrArg (m.get? x).bind (funext kept)
  · rfl

variable [TransOrd α]

theorem contains_insert [DecidableEq α] (m : SortedMap α β) (k x : α) (v : β) :
    (m.insert k v).contains x = (decide (x = k) || m.contains x) := by
  by_cases same : x = k <;> simp [contains, get?_insert, same]

theorem insert_of_get? [DecidableEq α] {m : SortedMap α β} {k : α} {v : β} (found : m.get? k = some v) :
    m.insert k v = m := by
  apply ext_get?
  intro x
  rw [get?_insert]
  split
  · rename_i same
    rw [same, found]
  · rfl

theorem insertIfNew_of_get?_eq_none {m : SortedMap α β} {k : α} (v : β) (absent : m.get? k = none) :
    m.insertIfNew k v = m.insert k v := by
  rw [insertIfNew, if_neg (by simp [contains, absent])]

theorem insertIfNew_of_contains {m : SortedMap α β} {k : α} (v : β) (present : m.contains k = true) :
    m.insertIfNew k v = m := if_pos present

theorem erase_of_absent [DecidableEq α] {m : SortedMap α β} {k : α} (absent : m.get? k = none) : m.erase k = m := by
  apply ext_get?
  intro x
  rw [get?_erase]
  split
  · rename_i same
    rw [same, absent]
  · rfl

theorem erase_insert [DecidableEq α] {m : SortedMap α β} {k : α} (v : β) (absent : m.get? k = none) :
    (m.insert k v).erase k = m := by
  apply ext_get?
  intro x
  rw [get?_erase]
  split
  · rename_i same
    rw [same, absent]
  · rename_i differ
    rw [get?_insert_of_ne _ _ differ]

theorem modify_of_same [DecidableEq α] (m : SortedMap α β) (k : α) {f : β → β} (same : ∀ v, f v = v) :
    m.modify k f = m := by
  apply ext_get?
  intro x
  rw [get?_modify, funext same, Option.map_id', ite_self]

theorem modify_modify [DecidableEq α] (m : SortedMap α β) (k : α) (f g : β → β) :
    (m.modify k f).modify k g = m.modify k fun v => g (f v) := by
  apply ext_get?
  intro x
  rw [get?_modify, get?_modify, get?_modify]
  split
  · exact Option.map_map ..
  · rfl

theorem erase_modify [DecidableEq α] (m : SortedMap α β) (k : α) (f : β → β) : (m.modify k f).erase k = m.erase k := by
  apply ext_get?
  intro x
  rw [get?_erase, get?_erase, get?_modify]
  split <;> rfl

theorem filter_ne_of_unused [BEq β] [LawfulBEq β] {m : SortedMap α β} {v : β} (unused : ∀ k, m.get? k ≠ some v) :
    (m.filter fun _ w => w != v) = m := by
  apply ext_get?
  intro x
  ext w
  rw [get?_filter, Option.filter_eq_some_iff, bne_iff_ne, and_iff_left_iff_imp]
  rintro found rfl
  exact unused x found

theorem filter_ne_insert [DecidableEq α] [BEq β] [LawfulBEq β] {m : SortedMap α β} {k : α} {v : β}
    (absent : m.get? k = none) (unused : ∀ k, m.get? k ≠ some v) : ((m.insert k v).filter fun _ w => w != v) = m := by
  have kept := filter_ne_of_unused unused
  apply ext_get?
  intro x
  rw [get?_filter, get?_insert]
  split
  · rename_i same
    rw [same, absent, Option.filter_some, bne_self_eq_false, if_neg Bool.false_ne_true]
  · rw [← get?_filter m fun _ w => w != v, kept]

theorem keys_eq_of_forall_mem {m : SortedMap α β} {n : SortedMap α γ}
    (h : ∀ k, k ∈ m.keys ↔ k ∈ n.keys) : m.keys = n.keys := by
  have same : m.keys.Perm n.keys := (List.perm_ext_iff_of_nodup m.keys_nodup n.keys_nodup).mpr h
  refine same.eq_of_pairwise ?_ m.keys_ascending n.keys_ascending
  intro a b _ _ below above
  have := TransCmp.lt_trans below above
  simp [ReflCmp.compare_self] at this

theorem size_insert_of_absent [DecidableEq α] {m : SortedMap α β} {k : α} (v : β) (absent : m.contains k = false) :
    (m.insert k v).size = m.size + 1 := by
  have new : k ∉ m.keys := by simp [mem_keys_iff_contains, absent]
  have same : (m.insert k v).keys.Perm (k :: m.keys) := by
    refine (List.perm_ext_iff_of_nodup (m.insert k v).keys_nodup (List.nodup_cons.mpr ⟨new, m.keys_nodup⟩)).mpr ?_
    intro x
    simp [mem_keys_iff_contains, contains_insert]
  rw [size_eq_length_keys, size_eq_length_keys, same.length_eq, List.length_cons]

theorem get?_foldl_insert_of_not_mem [DecidableEq α] (es : List (α × β)) (m : SortedMap α β) {k : α}
    (absent : k ∉ es.map Prod.fst) : (es.foldl (fun m e => m.insert e.1 e.2) m).get? k = m.get? k := by
  induction es generalizing m with
  | nil => rfl
  | cons e es ih =>
    simp only [List.map_cons, List.mem_cons, not_or] at absent
    rw [List.foldl_cons, ih _ absent.2, get?_insert_of_ne m e.2 absent.1]

theorem get?_foldl_insert_of_mem [DecidableEq α] (es : List (α × β)) (m : SortedMap α β) {k : α} {v : β}
    (distinct : (es.map Prod.fst).Nodup) (member : (k, v) ∈ es) :
    (es.foldl (fun m e => m.insert e.1 e.2) m).get? k = some v := by
  induction es generalizing m with
  | nil => cases member
  | cons e es ih =>
    simp only [List.map_cons, List.nodup_cons] at distinct
    rw [List.foldl_cons]
    rcases List.mem_cons.mp member with rfl | member
    · rw [get?_foldl_insert_of_not_mem es _ distinct.1, get?_insert_self]
    · exact ih _ distinct.2 member

theorem get?_ofList_eq_some_iff [DecidableEq α] {es : List (α × β)} (distinct : (es.map Prod.fst).Nodup)
    {k : α} {v : β} : (ofList es).get? k = some v ↔ (k, v) ∈ es := by
  apply Iff.intro
  · intro found
    by_cases member : k ∈ es.map Prod.fst
    · obtain ⟨⟨x, w⟩, entry, rfl⟩ := List.mem_map.mp member
      rw [ofList, get?_foldl_insert_of_mem es ∅ distinct entry, Option.some_inj] at found
      exact found ▸ entry
    · rw [ofList, get?_foldl_insert_of_not_mem es ∅ member] at found
      cases found
  · exact get?_foldl_insert_of_mem es ∅ distinct

theorem mem_keys_foldl_insert [DecidableEq α] (es : List (α × β)) (m : SortedMap α β) (k : α) :
    k ∈ (es.foldl (fun m e => m.insert e.1 e.2) m).keys ↔ k ∈ es.map Prod.fst ∨ k ∈ m.keys := by
  induction es generalizing m with
  | nil => simp
  | cons e es ih =>
    rw [List.foldl_cons, ih, mem_keys_iff_contains (m := m.insert e.1 e.2), contains_insert,
      mem_keys_iff_contains]
    simp only [Bool.or_eq_true, decide_eq_true_eq, List.map_cons, List.mem_cons]
    tauto

theorem mem_keys_ofList [DecidableEq α] {es : List (α × β)} {k : α} :
    k ∈ (ofList es).keys ↔ k ∈ es.map Prod.fst := by
  rw [ofList, mem_keys_foldl_insert]
  simp

/-- The entries of a map make the map again, in whichever order they come. -/
theorem ofList_eq_of_perm [DecidableEq α] {es : List (α × β)} {m : SortedMap α β} (same : es.Perm m.entries) :
    ofList es = m := by
  have distinct : (es.map Prod.fst).Nodup := ((same.map Prod.fst).nodup_iff).mpr m.keys_nodup
  apply ext_get?
  intro k
  apply Option.ext
  intro v
  rw [get?_ofList_eq_some_iff distinct, same.mem_iff, get?_eq_some_iff]

theorem keys_ofList_congr [DecidableEq α] {es : List (α × β)} {fs : List (α × γ)} (same : es.map Prod.fst = fs.map Prod.fst) :
    (ofList es).keys = (ofList fs).keys := by
  apply keys_eq_of_forall_mem
  intro k
  rw [mem_keys_ofList, mem_keys_ofList, same]

theorem insert_mapValues [DecidableEq α] (m : SortedMap α β) (f : α → β → γ) (k : α) (v : β) :
    (m.mapValues f).insert k (f k v) = (m.insert k v).mapValues f := by
  apply ext_get?
  intro x
  rw [get?_insert, get?_mapValues, get?_mapValues, get?_insert]
  split
  · rename_i same
    rw [same]
    rfl
  · rfl

theorem insertIfNew_mapValues [DecidableEq α] (m : SortedMap α β) (f : α → β → γ) (k : α) (v : β) :
    (m.mapValues f).insertIfNew k (f k v) = (m.insertIfNew k v).mapValues f := by
  unfold insertIfNew
  rw [contains_mapValues]
  split
  · rfl
  · exact m.insert_mapValues f k v

theorem modify_mapValues {f : β → γ} {g : β → β} {h : γ → γ} (same : ∀ v, h (f v) = f (g v)) (m : SortedMap α β) (k : α) :
    (m.mapValues fun _ => f).modify k h = (m.modify k g).mapValues fun _ => f := by
  classical
  apply ext_get?
  intro x
  rw [get?_modify, get?_mapValues, get?_mapValues, get?_modify]
  split
  · rw [Option.map_map, Option.map_map]
    exact congrArg (fun t => (m.get? x).map t) (funext same)
  · rfl

end SortedMap

namespace SortedSet

variable {α : Type u} [Ord α] [LawfulEqOrd α]

theorem mem_toList {s : SortedSet α} {x : α} : x ∈ s.toList ↔ s.contains x = true :=
  SortedMap.mem_keys_iff_contains

theorem toList_nodup (s : SortedSet α) : s.toList.Nodup := SortedMap.keys_nodup s

theorem contains_filter (s : SortedSet α) (keep : α → Bool) (x : α) :
    (s.filter keep).contains x = (s.contains x && keep x) := by
  rw [SortedMap.contains, SortedSet.filter, SortedMap.get?_filter, SortedMap.contains]
  cases s.get? x <;> cases keep x <;> rfl

variable [TransOrd α]

theorem ext_contains {s t : SortedSet α} (h : ∀ x, s.contains x = t.contains x) : s = t := by
  apply SortedMap.ext_get?
  intro x
  have same := h x
  simp only [SortedMap.contains] at same
  cases hs : s.get? x <;> cases ht : t.get? x <;> simp_all

theorem contains_insert [DecidableEq α] (s : SortedSet α) (x y : α) :
    (s.insert x).contains y = (decide (y = x) || s.contains y) :=
  SortedMap.contains_insert s x y ()

theorem insert_of_contains [DecidableEq α] {s : SortedSet α} {x : α} (present : s.contains x = true) : s.insert x = s := by
  obtain ⟨_, found⟩ := SortedMap.contains_iff.mp present
  exact SortedMap.insert_of_get? found

theorem contains_insertMany [DecidableEq α] (s : SortedSet α) (xs : List α) (y : α) :
    (s.insertMany xs).contains y = (decide (y ∈ xs) || s.contains y) := by
  induction xs generalizing s with
  | nil => simp [insertMany]
  | cons x xs ih =>
    rw [insertMany, List.foldl_cons, ← insertMany, ih, contains_insert]
    by_cases same : y = x <;> simp [same]

theorem contains_ofList [DecidableEq α] (xs : List α) (y : α) :
    (ofList xs).contains y = decide (y ∈ xs) := by
  rw [show ofList xs = insertMany ∅ xs from rfl, contains_insertMany]
  simp

end SortedSet

section Groups

variable {α : Type u} {κ : Type v} [DecidableEq κ]

variable [Ord κ] [TransOrd κ] [LawfulEqOrd κ]

theorem mem_groupByKey {key : α → κ} {xs : List α} {k : κ} {ys : List α} :
    (k, ys) ∈ groupByKey key xs ↔ (∃ x ∈ xs, key x = k) ∧ ys = xs.filter fun x => key x == k := by
  simp only [groupByKey, List.mem_map, Prod.mk.injEq, SortedSet.mem_toList, SortedSet.contains_ofList,
    decide_eq_true_eq]
  apply Iff.intro
  · intro h
    obtain ⟨_, known, rfl, rfl⟩ := h
    exact ⟨known, rfl⟩
  · intro h
    obtain ⟨known, rfl⟩ := h
    exact ⟨k, known, rfl, rfl⟩

theorem groupByKey_map {β : Type w} (key : β → κ) (f : α → β) (xs : List α) :
    groupByKey key (xs.map f) = (groupByKey (key ∘ f) xs).map fun g => (g.1, g.2.map f) := by
  rw [groupByKey, groupByKey, List.map_map, List.map_map]
  exact List.map_congr_left fun k _ => congrArg (Prod.mk k) List.filter_map

end Groups

end GraphWrites
