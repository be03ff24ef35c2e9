import GraphWrites.Proofs.Variable
import Mathlib.Data.List.Nodup

namespace GraphWrites.Name

theorem numbered_eq (base : String) (n : Nat) : numbered base n = base ++ (Variable.mk n).text :=
  String.append_assoc

theorem numbered_injective (base : String) : Function.Injective (numbered base) := by
  intro n m same
  rw [numbered_eq, numbered_eq] at same
  have suffixes := congrArg String.toList same
  rw [String.toList_append, String.toList_append] at suffixes
  have texts := String.toList_injective (List.append_cancel_left suffixes)
  exact congrArg Variable.index (Variable.text_injective texts)

theorem numbered_ne (base : String) (n : Nat) : numbered base n ≠ base := by
  intro same
  have chars := congrArg String.toList same
  rw [numbered_eq, String.toList_append, Variable.toList_text] at chars
  have lengths := congrArg List.length chars
  simp at lengths

theorem firstFree_eq (base : String) (taken : List String) (fuel n : Nat) :
    ∃ k ≤ fuel, firstFree base taken fuel n = numbered base (n + k) ∧
      (∀ j < k, numbered base (n + j) ∈ taken) ∧ (k = fuel ∨ numbered base (n + k) ∉ taken) := by
  induction fuel generalizing n with
  | zero => exact ⟨0, Nat.le_refl 0, rfl, fun j below => absurd below (Nat.not_lt_zero j), .inl rfl⟩
  | succ fuel ih =>
    unfold firstFree
    by_cases known : numbered base n ∈ taken
    · obtain ⟨k, bound, found, below, stop⟩ := ih (n + 1)
      have shift : ∀ j, n + 1 + j = n + (j + 1) := fun j => by omega
      rw [if_pos (by simpa using known), found, shift]
      refine ⟨k + 1, by omega, rfl, fun j small => ?_, ?_⟩
      · cases j with
        | zero => exact known
        | succ j => exact shift j ▸ below j (by omega)
      · rcases stop with all | free
        · exact .inl (by omega)
        · exact .inr (shift k ▸ free)
    · rw [if_neg (by simpa using known)]
      exact ⟨0, Nat.zero_le _, rfl, fun j below => absurd below (Nat.not_lt_zero j), .inr known⟩

/-- Numbered names that are taken next to their base are fewer than the taken names. -/
theorem lt_length_of_numbered_mem {base : String} {taken : List String} (known : base ∈ taken) {k : Nat}
    (below : ∀ j < k, numbered base (1 + j) ∈ taken) : k < taken.length := by
  -- the base and the numbered names are distinct, and all are taken
  let names := base :: (List.range k).map fun j => numbered base (1 + j)
  have distinct : names.Nodup := by
    refine List.nodup_cons.mpr ⟨fun member => ?_, List.nodup_range.map ?_⟩
    · obtain ⟨j, -, same⟩ := List.mem_map.mp member
      exact numbered_ne base _ same
    · intro i j same
      have := numbered_injective base same
      omega
  have subset : names ⊆ taken := by
    intro name member
    rcases List.mem_cons.mp member with rfl | member
    · exact known
    · obtain ⟨j, small, rfl⟩ := List.mem_map.mp member
      exact below j (List.mem_range.mp small)
  have more := List.Nodup.length_le_of_subset distinct subset
  simp only [names, List.length_cons, List.length_map, List.length_range] at more
  omega

theorem fresh_of_mem {base : String} {taken : List String} (known : base ∈ taken) :
    ∃ k, fresh base taken = numbered base (1 + k) ∧ numbered base (1 + k) ∉ taken ∧
      ∀ j < k, numbered base (1 + j) ∈ taken := by
  obtain ⟨k, -, found, below, stop⟩ := firstFree_eq base taken taken.length 1
  refine ⟨k, ?_, ?_, below⟩
  · unfold fresh
    rw [if_pos (by simpa using known), found]
  · have fewer := lt_length_of_numbered_mem known below
    rcases stop with all | free
    · omega
    · exact free

theorem fresh_of_not_mem {base : String} {taken : List String} (free : base ∉ taken) : fresh base taken = base := by
  unfold fresh
  rw [if_neg (by simpa using free)]

theorem fresh_not_mem (base : String) (taken : List String) : fresh base taken ∉ taken := by
  by_cases known : base ∈ taken
  · obtain ⟨k, found, free, -⟩ := fresh_of_mem known
    rw [found]
    exact free
  · rw [fresh_of_not_mem known]
    exact known

theorem fresh_eq_or (base : String) (taken : List String) :
    fresh base taken = base ∨ ∃ v : Variable, fresh base taken = base ++ v.text := by
  by_cases known : base ∈ taken
  · obtain ⟨k, found, -, -⟩ := fresh_of_mem known
    exact .inr ⟨⟨1 + k⟩, found.trans (numbered_eq base _)⟩
  · exact .inl (fresh_of_not_mem known)

theorem sanitized_eq_empty {s : String} (empty : sanitized s = "") : s = "" := by
  have chars := congrArg String.toList empty
  rw [sanitized, String.toList_ofList] at chars
  exact String.toList_eq_nil_iff.mp (List.map_eq_nil_iff.mp chars)

/-- The search as a loop: from number `n` on it comes to an end with this name. -/
inductive Search (base : String) (taken : List String) : Nat → String → Prop where
  | found {n : Nat} (free : numbered base n ∉ taken) : Search base taken n (numbered base n)
  | next {n : Nat} {name : String} (known : numbered base n ∈ taken) (rest : Search base taken (n + 1) name) :
      Search base taken n name

theorem search_of_taken {base : String} {taken : List String} {k n : Nat}
    (below : ∀ j < k, numbered base (n + j) ∈ taken) (free : numbered base (n + k) ∉ taken) :
    Search base taken n (numbered base (n + k)) := by
  induction k generalizing n with
  | zero => exact .found free
  | succ k ih =>
    have shift : ∀ j, n + (j + 1) = n + 1 + j := fun j => by omega
    rw [shift] at free ⊢
    refine .next (below 0 (Nat.succ_pos k)) (ih (fun j small => ?_) free)
    rw [← shift]
    exact below (j + 1) (Nat.succ_lt_succ small)

theorem Search.unique {base : String} {taken : List String} {n : Nat} {first second : String}
    (left : Search base taken n first) (right : Search base taken n second) : first = second := by
  induction left with
  | found free =>
    cases right with
    | found => rfl
    | next known => exact absurd known free
  | next known _ ih =>
    cases right with
    | found free => exact absurd known free
    | next _ rest => exact ih rest

/-- A base that is taken gets the name with which the loop ends. Its number is not above the number of taken names. -/
theorem search_fresh {base : String} {taken : List String} (known : base ∈ taken) :
    (∀ name, Search base taken 1 name ↔ name = fresh base taken) ∧
      ∃ n, 1 ≤ n ∧ n ≤ taken.length ∧ fresh base taken = numbered base n ∧
        ∀ m, 1 ≤ m → m < n → numbered base m ∈ taken := by
  obtain ⟨k, found, free, below⟩ := fresh_of_mem known
  have fewer := lt_length_of_numbered_mem known below
  have ends : Search base taken 1 (fresh base taken) := found ▸ search_of_taken below free
  refine ⟨fun name => ⟨fun other => other.unique ends, fun same => same ▸ ends⟩, 1 + k, by omega, by omega, found, ?_⟩
  intro m least small
  obtain ⟨j, rfl⟩ := Nat.exists_eq_add_of_le least
  exact below j (by omega)

end GraphWrites.Name
