import GraphWrites.Proofs.Variable.Supply

namespace GraphWrites

namespace SortedSet

universe u

variable {α : Type u} [Ord α]

theorem min?_least [Std.LawfulEqOrd α] {s : SortedSet α} {x y : α} (least : s.min? = some x)
    (member : s.contains y = true) : x = y ∨ compare x y = .lt := by
  obtain ⟨es, ascending⟩ := s
  have entry : (y, ()) ∈ es := by
    obtain ⟨_, found⟩ := SortedMap.contains_iff.mp member
    exact SortedMap.get?_eq_some_iff.mp found
  cases es with
  | nil => cases entry
  | cons e es =>
    have first : e.1 = x := Option.some_inj.mp least
    rcases List.mem_cons.mp entry with same | later
    · left
      rw [← first, ← same]
    · right
      rw [← first]
      exact (List.pairwise_cons.mp ascending).1 _ later

end SortedSet

namespace Supply

theorem isOutstanding_of_lt_take {s : Supply} (sound : s.Sound) (kept : ∀ v, s.retired.contains v = false)
    {w : Variable} (below : w.index < s.take.1.index) : s.isOutstanding w = true := by
  refine isOutstanding_iff.mpr ⟨?_, ?_, kept w⟩
  · rcases s.take_eq with ⟨v, least, next⟩ | ⟨-, next⟩
    · rw [next] at below
      have := sound.pooled v (SortedSet.contains_of_min? least)
      dsimp only at below
      omega
    · rw [next] at below
      exact below
  · rcases s.take_eq with ⟨v, least, next⟩ | ⟨empty, next⟩
    · rw [next] at below
      rw [Bool.eq_false_iff]
      intro waiting
      rcases SortedSet.min?_least least waiting with same | less
      · rw [same] at below
        exact Nat.lt_irrefl _ below
      · have less := Variable.compare_eq_lt_iff.mp less
        dsimp only at below
        omega
    · exact SortedSet.contains_of_min?_eq_none empty w

structure Alike (s t : Supply) : Prop where
  outstanding : ∀ v, s.isOutstanding v = t.isOutstanding v
  bound : s.bound = t.bound

theorem Alike.symm {s t : Supply} (alike : s.Alike t) : t.Alike s :=
  ⟨fun v => (alike.outstanding v).symm, alike.bound.symm⟩

/-- Nothing is retired, and everything taken so far would fit into the pool. -/
structure Roomy (s : Supply) : Prop where
  sound : s.Sound
  kept : ∀ v, s.retired.contains v = false
  fits : s.fresh ≤ s.capacity

theorem Alike.take_fst_le {s t : Supply} (alike : s.Alike t) (roomy : t.Roomy) :
    t.take.1.index ≤ s.take.1.index := by
  by_contra less
  have out := isOutstanding_of_lt_take roomy.sound roomy.kept (Nat.lt_of_not_le less)
  rw [← alike.outstanding, s.isOutstanding_take_self] at out
  cases out

theorem Alike.take_fst {s t : Supply} (alike : s.Alike t) (roomy : s.Roomy) (roomy' : t.Roomy) :
    s.take.1 = t.take.1 := by
  have index := Nat.le_antisymm (alike.symm.take_fst_le roomy) (alike.take_fst_le roomy')
  cases h : s.take.1
  cases h' : t.take.1
  simpa [h, h'] using index

theorem Alike.take {s t : Supply} (alike : s.Alike t) (roomy : s.Roomy) (roomy' : t.Roomy) :
    s.take.2.Alike t.take.2 := by
  constructor
  · intro v
    rw [Bool.eq_iff_iff, isOutstanding_take roomy.sound, isOutstanding_take roomy'.sound,
      alike.take_fst roomy roomy', alike.outstanding]
  · rw [bound_take, bound_take, alike.bound]

theorem Roomy.new (capacity : Nat) : (new capacity).Roomy :=
  ⟨new_sound capacity, fun _ => rfl, Nat.zero_le _⟩

@[simp]
theorem capacity_take (s : Supply) : s.take.2.capacity = s.capacity := by
  rcases s.take_eq with ⟨v, -, next⟩ | ⟨-, next⟩ <;> rw [next]

@[simp]
theorem capacity_release (s : Supply) (v : Variable) : (s.release v).2.capacity = s.capacity := by
  unfold release
  split
  · dsimp only
    split <;> rfl
  · rfl

@[simp]
theorem capacity_releaseAll (s : Supply) (vs : List Variable) : (s.releaseAll vs).capacity = s.capacity := by
  induction vs generalizing s with
  | nil => rfl
  | cons v vs ih =>
    have rest := ih (s.release v).2
    rw [capacity_release] at rest
    exact rest

theorem Roomy.fresh_eq {s : Supply} (roomy : s.Roomy) : s.fresh = s.live + s.pooled.size := by
  have none : s.retired.size = 0 := by
    have empty : s.retired.isEmpty = true :=
      SortedMap.isEmpty_iff.mpr fun v => SortedMap.contains_eq_false_iff.mp (roomy.kept v)
    simpa [SortedMap.size, SortedMap.isEmpty] using empty
  have count := roomy.sound.count
  omega

theorem Roomy.take {s : Supply} (roomy : s.Roomy) (room : s.take.2.live ≤ s.capacity) : s.take.2.Roomy := by
  have split := roomy.fresh_eq
  rw [live_take] at room
  refine ⟨roomy.sound.take, ?_, ?_⟩
  · rcases s.take_eq with ⟨v, -, next⟩ | ⟨-, next⟩ <;> rw [next] <;> exact roomy.kept
  · rcases s.take_eq with ⟨v, -, next⟩ | ⟨empty, next⟩
    · rw [next]
      exact roomy.fits
    · have nothing : s.pooled.size = 0 := by
        have none := Option.map_eq_none_iff.mp empty
        simpa [SortedMap.size] using none
      rw [capacity_take, next]
      dsimp only
      omega

theorem Alike.take_take_fst {s t : Supply} (alike : s.Alike t) (roomy : s.Roomy) (roomy' : t.Roomy)
    (room : s.live + 1 ≤ s.capacity) (room' : t.live + 1 ≤ t.capacity) : s.take.2.take.1 = t.take.2.take.1 := by
  have first : s.take.2.Roomy := by
    apply roomy.take
    rwa [live_take]
  have first' : t.take.2.Roomy := by
    apply roomy'.take
    rwa [live_take]
  exact (alike.take roomy roomy').take_fst first first'

theorem Roomy.release {s : Supply} (roomy : s.Roomy) (v : Variable) : (s.release v).2.Roomy := by
  cases out : s.isOutstanding v with
  | false => rwa [release_of_not_outstanding out]
  | true =>
    have room : s.pooled.size < s.capacity := by
      have some := roomy.sound.live_pos out
      have split := roomy.fresh_eq
      have fits := roomy.fits
      omega
    have sound := roomy.sound.release v
    rw [release_eq out, if_pos room] at sound ⊢
    exact ⟨sound, roomy.kept, roomy.fits⟩

theorem Roomy.releaseAll {s : Supply} (roomy : s.Roomy) (vs : List Variable) : (s.releaseAll vs).Roomy := by
  induction vs generalizing s with
  | nil => exact roomy
  | cons v vs ih => exact ih (roomy.release v)

example : ((new 1).take.2.take.2.releaseAll [⟨1⟩, ⟨0⟩]).take.1 = ⟨1⟩ := by decide

theorem takeFor_eq (s : Supply) (n : NodeId) :
    (∃ v, s.bound.get? n = some v ∧ s.takeFor n = (v, s)) ∨
      s.bound.get? n = none ∧ s.takeFor n = (s.take.1, { s.take.2 with bound := s.take.2.bound.insert n s.take.1 }) := by
  unfold takeFor
  cases s.bound.get? n with
  | none => exact .inr ⟨rfl, rfl⟩
  | some v => exact .inl ⟨v, rfl, rfl⟩

theorem Alike.takeFor_fst {s t : Supply} (alike : s.Alike t) (roomy : s.Roomy) (roomy' : t.Roomy) (n : NodeId) :
    (s.takeFor n).1 = (t.takeFor n).1 := by
  rcases s.takeFor_eq n with ⟨v, found, known⟩ | ⟨absent, taken⟩ <;>
    rcases t.takeFor_eq n with ⟨w, found', known'⟩ | ⟨absent', taken'⟩
  · rw [alike.bound, found'] at found
    rw [known, known', Option.some_inj.mp found]
  · rw [alike.bound, absent'] at found
    cases found
  · rw [alike.bound, found'] at absent
    cases absent
  · rw [taken, taken']
    exact alike.take_fst roomy roomy'

inductive Moves (s : Supply) : Supply → Prop where
  | stay : s.Moves s
  | take : s.Moves s.take.2
  | takeTwice : s.Moves s.take.2.take.2
  | takeFor (n : NodeId) : s.Moves (s.takeFor n).2
  | releaseAll (vs : List Variable) : s.Moves (s.releaseAll vs)

theorem Moves.capacity {s t : Supply} (moves : s.Moves t) : t.capacity = s.capacity := by
  cases moves with
  | takeFor n => rcases s.takeFor_eq n with ⟨v, -, known⟩ | ⟨-, taken⟩ <;> simp [*]
  | _ => simp

theorem Moves.roomy {s t : Supply} (moves : s.Moves t) (roomy : s.Roomy) (room : t.live ≤ s.capacity) : t.Roomy := by
  cases moves with
  | stay => exact roomy
  | take => exact roomy.take room
  | takeTwice =>
    have first : s.take.2.live ≤ s.capacity := by
      rw [live_take] at room
      omega
    apply (roomy.take first).take
    rwa [capacity_take]
  | takeFor n =>
    rcases s.takeFor_eq n with ⟨v, -, known⟩ | ⟨-, taken⟩
    · rwa [known]
    · rw [taken] at room ⊢
      have next := roomy.take room
      exact ⟨next.sound.rebind _, next.kept, next.fits⟩
  | releaseAll vs => exact roomy.releaseAll vs

end Supply

end GraphWrites
