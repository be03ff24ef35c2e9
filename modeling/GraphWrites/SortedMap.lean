namespace GraphWrites

open Std

universe u v w

/-- A finite map: a list of entries, strictly ascending in its keys. -/
@[ext]
structure SortedMap (α : Type u) (β : Type v) [Ord α] where
  entries : List (α × β)
  ascending : entries.Pairwise fun a b => compare a.1 b.1 = .lt

namespace SortedMap

variable {α : Type u} {β : Type v} [Ord α]

instance : EmptyCollection (SortedMap α β) := ⟨⟨[], .nil⟩⟩

instance : Inhabited (SortedMap α β) := ⟨∅⟩

instance [DecidableEq α] [DecidableEq β] : DecidableEq (SortedMap α β) := fun m n =>
  decidable_of_iff (m.entries = n.entries) SortedMap.ext_iff.symm

def get? (m : SortedMap α β) (k : α) : Option β :=
  (m.entries.find? fun e => compare k e.1 == .eq).map Prod.snd

def contains (m : SortedMap α β) (k : α) : Bool := (m.get? k).isSome

def keys (m : SortedMap α β) : List α := m.entries.map Prod.fst

def values (m : SortedMap α β) : List β := m.entries.map Prod.snd

def size (m : SortedMap α β) : Nat := m.entries.length

def isEmpty (m : SortedMap α β) : Bool := m.entries.isEmpty

def filter (keep : α → β → Bool) (m : SortedMap α β) : SortedMap α β :=
  ⟨m.entries.filter fun e => keep e.1 e.2, m.ascending.sublist List.filter_sublist⟩

def erase (m : SortedMap α β) (k : α) : SortedMap α β :=
  m.filter fun x _ => compare k x != .eq

def mapValues {γ : Type w} (f : α → β → γ) (m : SortedMap α β) : SortedMap α γ :=
  ⟨m.entries.map fun e => (e.1, f e.1 e.2), List.pairwise_map.mpr m.ascending⟩

def insertEntry (k : α) (v : β) : List (α × β) → List (α × β)
  | [] => [(k, v)]
  | e :: es =>
    match compare k e.1 with
    | .lt => (k, v) :: e :: es
    | .eq => (k, v) :: es
    | .gt => e :: insertEntry k v es

theorem eq_or_mem_of_mem_insertEntry {k : α} {v : β} {e : α × β} {es : List (α × β)}
    (h : e ∈ insertEntry k v es) : e = (k, v) ∨ e ∈ es := by
  induction es with
  | nil => exact .inl (List.mem_singleton.mp h)
  | cons a es ih =>
    simp only [insertEntry] at h
    split at h
    · exact List.mem_cons.mp h
    · exact (List.mem_cons.mp h).imp_right (List.mem_cons_of_mem _)
    · rcases List.mem_cons.mp h with rfl | h
      · exact .inr List.mem_cons_self
      · exact (ih h).imp_right (List.mem_cons_of_mem _)

@[simp]
theorem entries_empty : (∅ : SortedMap α β).entries = [] := rfl

@[simp]
theorem get?_empty (k : α) : (∅ : SortedMap α β).get? k = none := rfl

theorem mem_entries_filter {m : SortedMap α β} {keep : α → β → Bool} {e : α × β} :
    e ∈ (m.filter keep).entries ↔ e ∈ m.entries ∧ keep e.1 e.2 = true :=
  List.mem_filter

variable [LawfulEqOrd α]

theorem get?_eq_some_iff {m : SortedMap α β} {k : α} {v : β} :
    m.get? k = some v ↔ (k, v) ∈ m.entries := by
  obtain ⟨es, ascending⟩ := m
  simp only [get?]
  induction es with
  | nil => simp
  | cons a es ih =>
    have tail := List.pairwise_cons.mp ascending
    have ih := ih tail.2
    obtain ⟨x, w⟩ := a
    by_cases same : k = x
    · subst same
      have absent : (k, v) ∉ es := fun member => by
        have := tail.1 _ member
        simp [ReflCmp.compare_self] at this
      simp [ReflCmp.compare_self, absent, eq_comm]
    · have differ : ¬compare k x = .eq := fun h => same (LawfulEqCmp.eq_of_compare h)
      simpa [List.find?_cons, differ, same] using ih

theorem get?_eq_none_iff {m : SortedMap α β} {k : α} :
    m.get? k = none ↔ ∀ v, (k, v) ∉ m.entries := by
  constructor
  · intro h v member
    simp [get?_eq_some_iff.mpr member] at h
  · intro h
    cases found : m.get? k with
    | none => rfl
    | some v => exact absurd (get?_eq_some_iff.mp found) (h v)

theorem mem_entries_erase {m : SortedMap α β} {k : α} {e : α × β} :
    e ∈ (m.erase k).entries ↔ e ∈ m.entries ∧ e.1 ≠ k := by
  rw [erase, mem_entries_filter, bne_iff_ne, ne_eq, LawfulEqCmp.compare_eq_iff_eq]
  exact and_congr_right fun _ => not_congr eq_comm

theorem get?_erase_self (m : SortedMap α β) (k : α) : (m.erase k).get? k = none :=
  get?_eq_none_iff.mpr fun _ member => (mem_entries_erase.mp member).2 rfl

theorem get?_erase_of_ne (m : SortedMap α β) {k x : α} (h : x ≠ k) : (m.erase k).get? x = m.get? x := by
  apply Option.ext
  intro v
  simp only [get?_eq_some_iff, mem_entries_erase]
  exact ⟨fun e => e.1, fun e => ⟨e, h⟩⟩

variable [TransOrd α]

theorem insertEntry_ascending {k : α} {v : β} {es : List (α × β)}
    (h : es.Pairwise fun a b => compare a.1 b.1 = .lt) :
    (insertEntry k v es).Pairwise fun a b => compare a.1 b.1 = .lt := by
  induction es with
  | nil => exact List.pairwise_singleton _ _
  | cons a es ih =>
    have tail := List.pairwise_cons.mp h
    simp only [insertEntry]
    split
    · rename_i below
      refine List.pairwise_cons.mpr ⟨fun e member => ?_, h⟩
      rcases List.mem_cons.mp member with rfl | member
      · exact below
      · exact TransCmp.lt_trans below (tail.1 e member)
    · rename_i same
      have same := LawfulEqCmp.eq_of_compare same
      exact List.pairwise_cons.mpr ⟨fun e member => same ▸ tail.1 e member, tail.2⟩
    · rename_i above
      refine List.pairwise_cons.mpr ⟨fun e member => ?_, ih tail.2⟩
      rcases eq_or_mem_of_mem_insertEntry member with rfl | member
      · exact OrientedCmp.lt_of_gt above
      · exact tail.1 e member

def insert (m : SortedMap α β) (k : α) (v : β) : SortedMap α β :=
  ⟨insertEntry k v m.entries, insertEntry_ascending m.ascending⟩

def insertIfNew (m : SortedMap α β) (k : α) (v : β) : SortedMap α β :=
  if m.contains k then m else m.insert k v

def modify (m : SortedMap α β) (k : α) (f : β → β) : SortedMap α β :=
  m.mapValues fun x v => if compare k x == .eq then f v else v

/-- The entries in list order, a later one over an earlier one of the same key. -/
def ofList (es : List (α × β)) : SortedMap α β :=
  es.foldl (fun m e => m.insert e.1 e.2) ∅

theorem get?_insert_self (m : SortedMap α β) (k : α) (v : β) : (m.insert k v).get? k = some v := by
  obtain ⟨es, ascending⟩ := m
  simp only [get?, insert]
  clear ascending
  induction es with
  | nil => simp [insertEntry, ReflCmp.compare_self]
  | cons a es ih =>
    simp only [insertEntry]
    split
    · simp [ReflCmp.compare_self]
    · simp [ReflCmp.compare_self]
    · rename_i above
      simpa [List.find?_cons, above] using ih

theorem get?_insert_of_ne (m : SortedMap α β) {k x : α} (v : β) (h : x ≠ k) :
    (m.insert k v).get? x = m.get? x := by
  have differ : ¬compare x k = .eq := fun e => h (LawfulEqCmp.eq_of_compare e)
  obtain ⟨es, ascending⟩ := m
  simp only [get?, insert]
  clear ascending
  induction es with
  | nil => simp [insertEntry, differ]
  | cons a es ih =>
    simp only [insertEntry]
    split
    · simp [differ]
    · rename_i same
      have same := LawfulEqCmp.eq_of_compare same
      subst same
      simp [differ]
    · simp only [List.find?_cons]
      split
      · rfl
      · exact ih

theorem get?_insert [DecidableEq α] (m : SortedMap α β) (k x : α) (v : β) :
    (m.insert k v).get? x = if x = k then some v else m.get? x := by
  split
  · rename_i same
    exact same ▸ get?_insert_self m k v
  · rename_i differ
    exact get?_insert_of_ne m v differ

theorem ext_get? {m n : SortedMap α β} (h : ∀ k, m.get? k = n.get? k) : m = n := by
  have same : ∀ e, e ∈ m.entries ↔ e ∈ n.entries := fun e => by
    rw [← get?_eq_some_iff (m := m), ← get?_eq_some_iff (m := n), h]
  obtain ⟨xs, hx⟩ := m
  obtain ⟨ys, hy⟩ := n
  simp only [mk.injEq] at same ⊢
  clear h
  induction xs generalizing ys with
  | nil =>
    cases ys with
    | nil => rfl
    | cons y ys => exact absurd ((same y).mpr List.mem_cons_self) List.not_mem_nil
  | cons x xs ih =>
    cases ys with
    | nil => exact absurd ((same x).mp List.mem_cons_self) List.not_mem_nil
    | cons y ys =>
      have hx := List.pairwise_cons.mp hx
      have hy := List.pairwise_cons.mp hy
      -- each list has the head of the other, and neither can stand behind the other's
      have head : x = y := by
        rcases List.mem_cons.mp ((same x).mp List.mem_cons_self) with e | later
        · exact e
        · rcases List.mem_cons.mp ((same y).mpr List.mem_cons_self) with e | earlier
          · exact e.symm
          · have := TransCmp.lt_trans (hx.1 y earlier) (hy.1 x later)
            simp [ReflCmp.compare_self] at this
      subst head
      have tail : xs = ys := by
        refine ih hx.2 ys hy.2 fun e => ⟨fun member => ?_, fun member => ?_⟩
        · rcases List.mem_cons.mp ((same e).mp (List.mem_cons_of_mem _ member)) with rfl | member'
          · have := hx.1 _ member
            simp [ReflCmp.compare_self] at this
          · exact member'
        · rcases List.mem_cons.mp ((same e).mpr (List.mem_cons_of_mem _ member)) with rfl | member'
          · have := hy.1 _ member
            simp [ReflCmp.compare_self] at this
          · exact member'
      rw [tail]

end SortedMap

abbrev SortedSet (α : Type u) [Ord α] := SortedMap α Unit

namespace SortedSet

variable {α : Type u} [Ord α]

def toList (s : SortedSet α) : List α := SortedMap.keys s

def filter (keep : α → Bool) (s : SortedSet α) : SortedSet α := SortedMap.filter (fun x _ => keep x) s

def min? (s : SortedSet α) : Option α := s.entries.head?.map Prod.fst

variable [TransOrd α] [LawfulEqOrd α]

def insert (s : SortedSet α) (x : α) : SortedSet α := SortedMap.insert s x ()

def ofList (xs : List α) : SortedSet α := xs.foldl insert ∅

def insertMany (s : SortedSet α) (xs : List α) : SortedSet α := xs.foldl insert s

end SortedSet

/-- Collects list elements by key: the keys ascend, and each group keeps the order of the list. -/
def groupByKey {α : Type u} {κ : Type v} [Ord κ] [TransOrd κ] [LawfulEqOrd κ] [BEq κ]
    (key : α → κ) (xs : List α) : List (κ × List α) :=
  (SortedSet.ofList (xs.map key)).toList.map fun k => (k, xs.filter fun x => key x == k)

end GraphWrites
