import GraphWrites.Proofs.Variable.Pool

namespace GraphWrites

inductive SupplyCall where
  | take
  | takeFor (n : NodeId)
  | release (v : Variable)
  | reset

inductive SupplyAnswer where
  | taken (v : Variable)
  | released (known : Bool)
  | done
deriving DecidableEq

namespace Supply

def call (s : Supply) : SupplyCall → SupplyAnswer × Supply
  | .take => (.taken s.take.1, s.take.2)
  | .takeFor n => (.taken (s.takeFor n).1, (s.takeFor n).2)
  | .release v => (.released (s.release v).1, (s.release v).2)
  | .reset => (.done, s.reset)

def after (s : Supply) (calls : List SupplyCall) : Supply := calls.foldl (fun s c => (s.call c).2) s

def trace (s : Supply) : List SupplyCall → List (SupplyCall × SupplyAnswer)
  | [] => []
  | c :: calls => (c, (s.call c).1) :: (s.call c).2.trace calls

end Supply

/-- The notes of the holders: what they hold, and which of it stands for which stored node, read both ways. -/
structure Holdings where
  held : SortedSet Variable
  ofNode : SortedMap NodeId Variable
  ofVariable : SortedMap Variable NodeId

namespace Holdings

def empty : Holdings := ⟨∅, ∅, ∅⟩

def hold (h : Holdings) (v : Variable) : Holdings := { h with held := h.held.insert v }

def bind (h : Holdings) (n : NodeId) (v : Variable) : Holdings :=
  { h with ofNode := h.ofNode.insert n v, ofVariable := h.ofVariable.insert v n }

def drop (h : Holdings) (v : Variable) : Holdings where
  held := h.held.erase v
  ofNode := match h.ofVariable.get? v with
    | some n => h.ofNode.erase n
    | none => h.ofNode
  ofVariable := h.ofVariable.erase v

def note (h : Holdings) : SupplyCall × SupplyAnswer → Holdings
  | (.take, .taken v) => h.hold v
  | (.takeFor n, .taken v) => (h.hold v).bind n v
  | (.release v, _) => h.drop v
  | (.reset, _) => empty
  | _ => h

def afterTrace (h : Holdings) (trace : List (SupplyCall × SupplyAnswer)) : Holdings := trace.foldl note h

end Holdings

namespace Supply

theorem nodeOf_eq_some_iff {s : Supply}
    (once : ∀ n m v, s.bound.get? n = some v → s.bound.get? m = some v → n = m) {v : Variable} {n : NodeId} :
    s.nodeOf v = some n ↔ s.bound.get? n = some v := by
  have forward : ∀ m, s.nodeOf v = some m → s.bound.get? m = some v := by
    intro m named
    obtain ⟨⟨k, w⟩, found, rfl⟩ := Option.map_eq_some_iff.mp named
    obtain rfl : w = v := by simpa using List.find?_some found
    exact SortedMap.get?_eq_some_iff.mpr (List.mem_of_find?_eq_some found)
  apply Iff.intro
  · exact forward n
  · intro bound
    cases named : s.nodeOf v with
    | some m => rw [once n m v bound (forward m named)]
    | none =>
      rw [nodeOf, Option.map_eq_none_iff, List.find?_eq_none] at named
      have differs := named _ (SortedMap.get?_eq_some_iff.mp bound)
      simp at differs

theorem Sound.retired_take_fst {s : Supply} (sound : s.Sound) : s.retired.contains s.take.1 = false := by
  rcases s.take_eq with ⟨v, least, next⟩ | ⟨-, next⟩
  · rw [next]
    exact sound.apart v (SortedSet.contains_of_min? least)
  · rw [next, Bool.eq_false_iff]
    intro lost
    exact Nat.lt_irrefl _ (sound.retired _ lost)

theorem take_fst_least {s : Supply} {v : Variable} (waiting : s.pooled.contains v = true) :
    s.pooled.contains s.take.1 = true ∧ s.take.1.index ≤ v.index := by
  rcases s.take_eq with ⟨w, least, next⟩ | ⟨empty, -⟩
  · rw [next]
    have order : w.index ≤ v.index := by
      rcases SortedSet.min?_least least waiting with rfl | less
      · exact Nat.le_refl _
      · exact Nat.le_of_lt (Variable.compare_eq_lt_iff.mp less)
    exact ⟨SortedSet.contains_of_min? least, order⟩
  · rw [SortedSet.contains_of_min?_eq_none empty v] at waiting
    cases waiting

theorem take_fst_of_isEmpty {s : Supply} (empty : s.pooled.isEmpty = true) : s.take.1 = ⟨s.fresh⟩ := by
  rcases s.take_eq with ⟨v, least, -⟩ | ⟨-, next⟩
  · have waiting := SortedSet.contains_of_min? least
    rw [SortedMap.contains, SortedMap.isEmpty_iff.mp empty v] at waiting
    cases waiting
  · rw [next]

theorem takeFor_of_bound {s : Supply} {n : NodeId} {v : Variable} (found : s.bound.get? n = some v) :
    s.takeFor n = (v, s) := by
  rcases s.takeFor_eq n with ⟨w, here, known⟩ | ⟨absent, -⟩
  · rw [found] at here
    rw [known, Option.some_inj.mp here]
  · rw [found] at absent
    cases absent

theorem takeFor_fst_of_unbound {s : Supply} {n : NodeId} (absent : s.bound.get? n = none) :
    (s.takeFor n).1 = s.take.1 := by
  rcases s.takeFor_eq n with ⟨w, here, -⟩ | ⟨-, taken⟩
  · rw [absent] at here
    cases here
  · rw [taken]

theorem release_fst (s : Supply) (v : Variable) : (s.release v).1 = s.isOutstanding v := by
  cases out : s.isOutstanding v with
  | false => rw [release_of_not_outstanding out]
  | true => rw [release_eq out]

theorem retired_take (s : Supply) : s.take.2.retired = s.retired := by
  rcases s.take_eq with ⟨v, -, next⟩ | ⟨-, next⟩ <;> rw [next]

theorem retired_takeFor (s : Supply) (n : NodeId) : (s.takeFor n).2.retired = s.retired := by
  rcases s.takeFor_eq n with ⟨v, -, known⟩ | ⟨-, taken⟩
  · rw [known]
  · rw [taken]
    exact s.retired_take

theorem retired_release {s : Supply} (v : Variable) {w : Variable} (lost : s.retired.contains w = true) :
    (s.release v).2.retired.contains w = true := by
  cases out : s.isOutstanding v with
  | false => rwa [release_of_not_outstanding out]
  | true =>
    rw [release_eq out]
    dsimp only
    split
    · exact lost
    · rw [SortedSet.contains_insert, lost, Bool.or_true]

/-- The notes are right, the pool is within its bounds, and only outstanding variables stand for nodes. -/
structure Recorded (s : Supply) (h : Holdings) : Prop where
  sound : s.Sound
  room : s.pooled.size ≤ s.capacity
  held : ∀ v, h.held.contains v = s.isOutstanding v
  ofNode : ∀ n, h.ofNode.get? n = s.bound.get? n
  ofVariable : ∀ v n, h.ofVariable.get? v = some n ↔ s.bound.get? n = some v
  taken : ∀ n v, s.bound.get? n = some v → s.isOutstanding v = true

section Recorded

variable {s : Supply} {h : Holdings}

theorem recorded_new (capacity : Nat) : (new capacity).Recorded .empty where
  sound := new_sound capacity
  room := Nat.zero_le _
  held _ := rfl
  ofNode _ := rfl
  ofVariable _ _ := ⟨nofun, nofun⟩
  taken _ _ := nofun

theorem Recorded.once (recorded : s.Recorded h) {n m : NodeId} {v : Variable} (here : s.bound.get? n = some v)
    (there : s.bound.get? m = some v) : n = m := by
  have here := (recorded.ofVariable v n).mpr here
  rw [(recorded.ofVariable v m).mpr there] at here
  exact (Option.some_inj.mp here).symm

theorem Recorded.unbound (recorded : s.Recorded h) {v : Variable} (free : s.isOutstanding v = false) (n : NodeId) :
    s.bound.get? n ≠ some v := by
  intro bound
  rw [recorded.taken n v bound] at free
  cases free

theorem Recorded.take (recorded : s.Recorded h) : s.take.2.Recorded (h.hold s.take.1) where
  sound := recorded.sound.take
  room := by
    have room := recorded.room
    rw [capacity_take]
    rcases s.take_eq with ⟨v, least, next⟩ | ⟨-, next⟩
    · have fewer := SortedMap.size_erase_of_contains (SortedSet.contains_of_min? least)
      rw [next]
      dsimp only
      omega
    · rw [next]
      exact room
  held v := by
    rw [Holdings.hold, SortedSet.contains_insert, Bool.eq_iff_iff, isOutstanding_take recorded.sound, recorded.held]
    simp
  ofNode n := by rw [bound_take]; exact recorded.ofNode n
  ofVariable v n := by rw [bound_take]; exact recorded.ofVariable v n
  taken n v bound := by
    rw [bound_take] at bound
    exact (isOutstanding_take recorded.sound v).mpr (.inr (recorded.taken n v bound))

theorem Recorded.bind (recorded : s.Recorded h) {n : NodeId} {v : Variable} (out : s.isOutstanding v = true)
    (absent : s.bound.get? n = none) (unbound : ∀ m, s.bound.get? m ≠ some v) :
    ({ s with bound := s.bound.insert n v } : Supply).Recorded (h.bind n v) where
  sound := recorded.sound.rebind _
  room := recorded.room
  held := recorded.held
  ofNode m := by rw [Holdings.bind, SortedMap.get?_insert, SortedMap.get?_insert, recorded.ofNode]
  ofVariable w m := by
    rw [Holdings.bind, SortedMap.get?_insert, SortedMap.get?_insert]
    by_cases named : w = v <;> by_cases node : m = n
    · simp [named, node]
    · simp [named, node, unbound, Ne.symm node]
    · simp [named, node, recorded.ofVariable, absent, Ne.symm named]
    · simp [named, node, recorded.ofVariable]
  taken m w bound := by
    rw [SortedMap.get?_insert] at bound
    split at bound
    · cases bound
      exact out
    · exact recorded.taken m w bound

theorem Recorded.takeFor (recorded : s.Recorded h) (n : NodeId) :
    (s.takeFor n).2.Recorded ((h.hold (s.takeFor n).1).bind n (s.takeFor n).1) := by
  rcases s.takeFor_eq n with ⟨v, found, known⟩ | ⟨absent, taken⟩
  · -- the notes have all that the answer tells
    have out := recorded.taken n v found
    rw [← recorded.held] at out
    have same : (h.hold v).bind n v = h := by
      rw [Holdings.bind, Holdings.hold, SortedSet.insert_of_contains out,
        SortedMap.insert_of_get? ((recorded.ofNode n).trans found),
        SortedMap.insert_of_get? ((recorded.ofVariable v n).mpr found)]
    rw [known, same]
    exact recorded
  · rw [taken]
    have unbound := recorded.unbound s.isOutstanding_take_self
    rw [← bound_take s] at absent unbound
    exact recorded.take.bind ((isOutstanding_take recorded.sound _).mpr (.inl rfl)) absent unbound

theorem Recorded.get?_bound_release (recorded : s.Recorded h) (v w : Variable) (n : NodeId) :
    (s.release v).2.bound.get? n = some w ↔ s.bound.get? n = some w ∧ w ≠ v := by
  rw [Supply.get?_bound_release, Option.filter_eq_some_iff]
  refine and_congr_right fun bound => ?_
  simp [recorded.taken n w bound]

theorem Recorded.get?_ofNode_drop (recorded : s.Recorded h) (v w : Variable) (n : NodeId) :
    (h.drop v).ofNode.get? n = some w ↔ s.bound.get? n = some w ∧ w ≠ v := by
  rw [Holdings.drop, ← recorded.ofNode]
  dsimp only
  cases named : h.ofVariable.get? v with
  | none =>
    have unbound : h.ofNode.get? n ≠ some v := by
      intro bound
      rw [recorded.ofNode, ← recorded.ofVariable, named] at bound
      cases bound
    simp only [iff_self_and]
    rintro bound rfl
    exact unbound bound
  | some m =>
    have bound := (recorded.ofVariable v m).mp named
    rw [SortedMap.get?_erase, recorded.ofNode]
    split
    · rename_i same
      rw [same, bound]
      simp only [reduceCtorEq, Option.some_inj, ne_eq, false_iff, not_and, not_not]
      exact Eq.symm
    · rename_i other
      simp only [iff_self_and]
      rintro here rfl
      exact other (recorded.once here bound)

theorem Recorded.release (recorded : s.Recorded h) (v : Variable) : (s.release v).2.Recorded (h.drop v) where
  sound := recorded.sound.release v
  room := by
    have room := recorded.room
    rw [capacity_release]
    cases out : s.isOutstanding v with
    | false => rwa [release_of_not_outstanding out]
    | true =>
      rw [release_eq out]
      dsimp only
      split
      · have unpooled := (isOutstanding_iff.mp out).2.1
        have more : (s.pooled.insert v).size = _ := SortedMap.size_insert_of_absent () unpooled
        dsimp only
        omega
      · exact room
  held w := by rw [Holdings.drop, SortedMap.contains_erase, isOutstanding_release, recorded.held]
  ofNode n := by
    apply Option.ext
    intro w
    rw [recorded.get?_ofNode_drop, recorded.get?_bound_release]
  ofVariable w n := by
    rw [recorded.get?_bound_release, Holdings.drop, SortedMap.get?_erase, ← recorded.ofVariable]
    by_cases same : w = v <;> simp [same]
  taken n w bound := by
    obtain ⟨bound, other⟩ := (recorded.get?_bound_release v w n).mp bound
    rw [isOutstanding_release, recorded.taken n w bound]
    simp [other]

theorem Recorded.call (recorded : s.Recorded h) (c : SupplyCall) :
    (s.call c).2.Recorded (h.note (c, (s.call c).1)) := by
  cases c with
  | take => exact recorded.take
  | takeFor n => exact recorded.takeFor n
  | release v => exact recorded.release v
  | reset => exact recorded_new s.capacity

theorem Recorded.after (recorded : s.Recorded h) (calls : List SupplyCall) :
    (s.after calls).Recorded (h.afterTrace (s.trace calls)) := by
  induction calls generalizing s h with
  | nil => exact recorded
  | cons c calls ih => exact ih (recorded.call c)

end Recorded

theorem capacity_call (s : Supply) (c : SupplyCall) : (s.call c).2.capacity = s.capacity := by
  cases c with
  | take => exact capacity_take s
  | takeFor n => exact (Moves.takeFor n).capacity
  | release v => exact capacity_release s v
  | reset => rfl

theorem capacity_after (s : Supply) (calls : List SupplyCall) : (s.after calls).capacity = s.capacity := by
  induction calls generalizing s with
  | nil => rfl
  | cons c calls ih => exact (ih (s.call c).2).trans (s.capacity_call c)

/-- The variables taken so far are held, pooled or retired, and no two of these. Some of those held stand for a stored
node, no two for the same one. -/
structure SharedOut (s : Supply) (h : Holdings) : Prop where
  cover : ∀ v, v.index < s.fresh ↔ h.held.contains v = true ∨ s.pooled.contains v = true ∨ s.retired.contains v = true
  held_pooled : ∀ v, h.held.contains v = true → s.pooled.contains v = false
  held_retired : ∀ v, h.held.contains v = true → s.retired.contains v = false
  pooled_retired : ∀ v, s.pooled.contains v = true → s.retired.contains v = false
  live : s.live = h.held.size
  pool : s.pooled.size ≤ s.capacity
  bound : s.bound = h.ofNode
  nodeOf : s.nodeOf = h.ofVariable.get?
  inverse : ∀ v n, s.nodeOf v = some n ↔ s.bound.get? n = some v
  bound_held : ∀ n v, s.bound.get? n = some v → h.held.contains v = true

/-- What a supply answers next, as far as its holders can tell. -/
structure Answers (s : Supply) (h : Holdings) : Prop where
  take_held : h.held.contains s.take.1 = false
  take_retired : s.retired.contains s.take.1 = false
  take_pooled : ∀ v, s.pooled.contains v = true → s.pooled.contains s.take.1 = true ∧ s.take.1.index ≤ v.index
  take_fresh : s.pooled.isEmpty = true → s.take.1 = ⟨s.fresh⟩
  takeFor_known : ∀ n v, h.ofNode.get? n = some v → s.takeFor n = (v, s)
  takeFor_new : ∀ n, h.ofNode.get? n = none → (s.takeFor n).1 = s.take.1
  release : ∀ v, (s.release v).1 = h.held.contains v
  release_refused : ∀ v, h.held.contains v = false → (s.release v).2 = s
  release_pooled : ∀ v, h.held.contains v = true → s.pooled.size < s.capacity → (s.release v).2.pooled.contains v = true
  release_retired : ∀ v, h.held.contains v = true → s.pooled.size = s.capacity → (s.release v).2.retired.contains v = true
  release_nodeOf : ∀ v, (s.release v).2.nodeOf v = none
  retired : ∀ c v, c ≠ .reset → s.retired.contains v = true → (s.call c).2.retired.contains v = true

section Recorded

variable {s : Supply} {h : Holdings}

theorem Recorded.nodeOf (recorded : s.Recorded h) (v : Variable) : s.nodeOf v = h.ofVariable.get? v := by
  apply Option.ext
  intro n
  rw [nodeOf_eq_some_iff fun _ _ _ => recorded.once, recorded.ofVariable]

theorem Recorded.sharedOut (recorded : s.Recorded h) : s.SharedOut h where
  cover v := by
    rw [recorded.held, isOutstanding_iff]
    apply Iff.intro
    · intro below
      cases waiting : s.pooled.contains v <;> cases lost : s.retired.contains v <;> simp [below]
    · intro some
      rcases some with ⟨below, -⟩ | waiting | lost
      · exact below
      · exact recorded.sound.pooled v waiting
      · exact recorded.sound.retired v lost
  held_pooled v out := by
    rw [recorded.held] at out
    exact (isOutstanding_iff.mp out).2.1
  held_retired v out := by
    rw [recorded.held] at out
    exact (isOutstanding_iff.mp out).2.2
  pooled_retired := recorded.sound.apart
  live := by
    rw [SortedMap.size_eq_length_keys]
    refine recorded.sound.live_eq_length h.held.keys_nodup fun v => ?_
    rw [SortedMap.mem_keys_iff_contains, recorded.held]
  pool := recorded.room
  bound := SortedMap.ext_get? fun n => (recorded.ofNode n).symm
  nodeOf := funext recorded.nodeOf
  inverse v n := nodeOf_eq_some_iff fun _ _ _ => recorded.once
  bound_held n v bound := by
    rw [recorded.held]
    exact recorded.taken n v bound

theorem Recorded.answers (recorded : s.Recorded h) : s.Answers h where
  take_held := by
    rw [recorded.held]
    exact s.isOutstanding_take_self
  take_retired := recorded.sound.retired_take_fst
  take_pooled _ := take_fst_least
  take_fresh := take_fst_of_isEmpty
  takeFor_known n v found := takeFor_of_bound ((recorded.ofNode n).symm.trans found)
  takeFor_new n absent := takeFor_fst_of_unbound ((recorded.ofNode n).symm.trans absent)
  release v := by rw [recorded.held, release_fst]
  release_refused v free := by
    rw [recorded.held] at free
    rw [release_of_not_outstanding free]
  release_pooled v out room := by
    rw [recorded.held] at out
    rw [release_eq out, if_pos room]
    simp [SortedSet.contains_insert]
  release_retired v out full := by
    rw [recorded.held] at out
    rw [release_eq out, if_neg (by omega)]
    simp [SortedSet.contains_insert]
  release_nodeOf v := by
    rw [(recorded.release v).nodeOf, Holdings.drop, SortedMap.get?_erase_self]
  retired c v other lost := by
    cases c with
    | take => exact s.retired_take ▸ lost
    | takeFor n => exact s.retired_takeFor n ▸ lost
    | release w => exact retired_release w lost
    | reset => exact absurd rfl other

end Recorded

/-- Whatever is called, the notes of the holders account for the supply. -/
theorem run_accounted_for (capacity : Nat) (calls : List SupplyCall) :
    ((new capacity).after calls).capacity = capacity ∧
      ((new capacity).after calls).SharedOut (.afterTrace .empty ((new capacity).trace calls)) ∧
      ((new capacity).after calls).Answers (.afterTrace .empty ((new capacity).trace calls)) := by
  have recorded := (recorded_new capacity).after calls
  exact ⟨capacity_after _ calls, recorded.sharedOut, recorded.answers⟩

example : ((new 1).trace [.takeFor ⟨7⟩, .take, .release ⟨0⟩, .release ⟨1⟩, .release ⟨0⟩, .release ⟨1⟩, .take, .takeFor ⟨7⟩]).map
    Prod.snd = [.taken ⟨0⟩, .taken ⟨1⟩, .released true, .released true, .released false, .released false, .taken ⟨0⟩,
      .taken ⟨2⟩] := by decide

end Supply

end GraphWrites
