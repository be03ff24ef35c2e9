import GraphWrites.Proofs.Ledger.Clearing
import Mathlib.Algebra.BigOperators.Group.Finset.Basic
import Mathlib.Algebra.BigOperators.Group.Finset.Piecewise

namespace GraphWrites

inductive LedgerCall where
  | register (r : EdgeRecord)
  | forget (r : EdgeRecord)
  | clear (c : Clearing)
deriving DecidableEq, Repr

namespace LedgerCall

def registered? : LedgerCall → Option EdgeRecord
  | register r => some r
  | _ => none

def registered (calls : List LedgerCall) : List EdgeRecord := calls.filterMap registered?

/-- No two different records registered in a history share a triple. -/
def UniqueTriples (calls : List LedgerCall) : Prop :=
  ∀ r ∈ registered calls, ∀ s ∈ registered calls, r.triple = s.triple → r = s

instance (calls : List LedgerCall) : Decidable (UniqueTriples calls) :=
  inferInstanceAs (Decidable (∀ r ∈ registered calls, ∀ s ∈ registered calls, r.triple = s.triple → r = s))

theorem registered_append (calls : List LedgerCall) (c : LedgerCall) :
    registered (calls ++ [c]) = registered calls ++ c.registered?.toList := by
  cases c <;> simp [registered, registered?]

theorem UniqueTriples.init {calls : List LedgerCall} {c : LedgerCall}
    (unique : UniqueTriples (calls ++ [c])) : UniqueTriples calls := by
  intro r hr s hs
  rw [UniqueTriples, registered_append] at unique
  exact unique r (List.mem_append_left _ hr) s (List.mem_append_left _ hs)

end LedgerCall

namespace Ledger

def apply (l : Ledger) : LedgerCall → Option Bool × Ledger
  | .register r => (none, l.register r)
  | .forget r => (l.forget r).map some id
  | .clear c => (l.clear c).map some id

def after (l : Ledger) (calls : List LedgerCall) : Ledger := calls.foldl (fun l c => (l.apply c).2) l

theorem after_append (l : Ledger) (calls : List LedgerCall) (c : LedgerCall) :
    l.after (calls ++ [c]) = ((l.after calls).apply c).2 := by
  simp [after]

end Ledger

/-- Where one record stands in a ledger. -/
inductive Standing where
  | absent
  | present
  | removed (d : Direction)
deriving DecidableEq, Repr

namespace Standing

/-- What a call makes of the standing of `r`. Only a clearing from the side of a removal undoes it. -/
def step (r : EdgeRecord) (s : Standing) : LedgerCall → Standing
  | .register q => if q = r then present else s
  | .forget q => if q = r ∧ s = present then absent else s
  | .clear c =>
    if c.selects r then
      match s with
      | absent => absent
      | present => removed c.direction
      | removed d => if d = c.direction then present else removed d
    else s

def reinstates (r : EdgeRecord) (s : Standing) : LedgerCall → Bool
  | .clear c => c.selects r && s == removed c.direction
  | _ => false

def after (r : EdgeRecord) (calls : List LedgerCall) : Standing := calls.foldl (step r) absent

/-- How often clearings bring `r` back, from a given standing on. -/
def reinstatements (r : EdgeRecord) : Standing → List LedgerCall → Nat
  | _, [] => 0
  | s, c :: calls => (reinstates r s c).toNat + reinstatements r (step r s c) calls

theorem after_append (r : EdgeRecord) (calls : List LedgerCall) (c : LedgerCall) :
    after r (calls ++ [c]) = step r (after r calls) c := by
  simp [after]

theorem reinstatements_append (r : EdgeRecord) (s : Standing) (calls : List LedgerCall) (c : LedgerCall) :
    reinstatements r s (calls ++ [c]) =
      reinstatements r s calls + (reinstates r (calls.foldl (step r) s) c).toNat := by
  induction calls generalizing s with
  | nil => simp [reinstatements]
  | cons b calls ih =>
    simp only [List.cons_append, reinstatements, List.foldl_cons, ih]
    omega

theorem registered_of_after_ne_absent {r : EdgeRecord} {calls : List LedgerCall}
    (known : after r calls ≠ absent) : r ∈ LedgerCall.registered calls := by
  induction calls using List.reverseRecOn with
  | nil => exact absurd rfl known
  | append_singleton calls c ih =>
    rw [LedgerCall.registered_append, List.mem_append]
    rw [after_append] at known
    by_cases before : after r calls = absent
    · right
      rw [before] at known
      cases c with
      | register q =>
        by_cases same : q = r
        · simp [LedgerCall.registered?, same]
        · simp [step, same] at known
      | forget q => simp [step] at known
      | clear c => simp [step] at known
    · exact .inl (ih before)

end Standing

namespace Ledger

/-- The standings a ledger gives to all records. -/
structure Holds (l : Ledger) (standing : EdgeRecord → Standing) : Prop where
  present : ∀ r, l.present.contains r = true ↔ standing r = .present
  removed : ∀ r d, l.removed.get? r = some d ↔ standing r = .removed d

def Apart (standing : EdgeRecord → Standing) : Prop :=
  ∀ r s, standing r ≠ .absent → standing s ≠ .absent → r.triple = s.triple → r = s

variable {l : Ledger} {standing : EdgeRecord → Standing}

theorem Holds.register (holds : l.Holds standing) {q : EdgeRecord}
    (alone : ∀ r, standing r ≠ .absent → r.triple = q.triple → r = q) :
    (l.register q).Holds fun r => (standing r).step r (.register q) := by
  constructor
  · intro r
    simp only [Ledger.register, SortedSet.contains_insert, Bool.or_eq_true, decide_eq_true_eq, holds.present,
      Standing.step]
    by_cases same : q = r
    · simp [same]
    · simp [same, Ne.symm same]
  · intro r d
    simp only [Ledger.register, SortedMap.get?_filter, Option.filter_eq_some_iff, holds.removed, Standing.step,
      bne_iff_ne]
    by_cases same : q = r
    · simp [same]
    · rw [if_neg same]
      refine ⟨And.left, fun found => ⟨found, fun shared => same ?_⟩⟩
      exact (alone r (by simp [found]) shared).symm

theorem Holds.forget (holds : l.Holds standing) (q : EdgeRecord) :
    (l.forget q).2.Holds fun r => (standing r).step r (.forget q) := by
  constructor
  · intro r
    simp only [Ledger.forget, SortedMap.contains_erase, Bool.and_eq_true, decide_eq_true_eq, holds.present,
      Standing.step]
    by_cases same : q = r <;> by_cases here : standing r = .present <;> simp [same, here, Ne.symm]
  · intro r d
    simp only [Ledger.forget, holds.removed, Standing.step]
    by_cases same : q = r ∧ standing r = .present
    · simp [same]
    · rw [if_neg same]

theorem Holds.sifted (holds : l.Holds standing)
    (apart : Apart standing) (c : Clearing) :
    l.moved c = l.selected c ∧ l.kept c = [] := by
  have free : ∀ r ∈ l.selected c, l.removedFrom c.direction r.triple = false := by
    intro r member
    have here := (holds.present r).mp (mem_selected.mp member).1
    rw [Bool.eq_false_iff]
    intro taken
    obtain ⟨s, found, shared⟩ := removedFrom_iff.mp taken
    have there := (holds.removed s _).mp found
    rw [apart s r (by simp [there]) (by simp [here]) shared, here] at there
    cases there
  have distinct : (l.selected c).Pairwise fun r s => r.triple ≠ s.triple := by
    refine (l.selected_nodup c).imp_of_mem ?_
    intro r s hr hs differ shared
    have here := (holds.present r).mp (mem_selected.mp hr).1
    have there := (holds.present s).mp (mem_selected.mp hs).1
    exact differ (apart r s (by simp [here]) (by simp [there]) shared)
  rw [moved, kept, sift_of_distinct _ _ free distinct]
  exact ⟨rfl, rfl⟩

theorem Holds.mem_selected (holds : l.Holds standing) {c : Clearing} {r : EdgeRecord} :
    r ∈ l.selected c ↔ standing r = .present ∧ c.selects r = true := by
  rw [Ledger.mem_selected, holds.present]

theorem Holds.mem_repeated (holds : l.Holds standing) {c : Clearing} {r : EdgeRecord} :
    r ∈ l.repeated c ↔ standing r = .removed c.direction ∧ c.selects r = true := by
  rw [Ledger.mem_repeated, holds.removed]

theorem Holds.clear (holds : l.Holds standing)
    (apart : Apart standing) (c : Clearing) :
    (l.clear c).2.Holds fun r => (standing r).step r (.clear c) := by
  obtain ⟨all, none⟩ := holds.sifted apart c
  constructor
  · intro r
    rw [clear_present, none, holds.present, holds.mem_repeated]
    cases here : standing r with
    | absent => simp [Standing.step]
    | present => by_cases selects : c.selects r = true <;> simp [Standing.step, selects]
    | removed d =>
      by_cases selects : c.selects r = true <;> by_cases same : d = c.direction <;>
        simp [Standing.step, selects, same]
  · intro r d
    rw [clear_removed, all]
    simp only [holds.mem_repeated, holds.mem_selected]
    have before := holds.removed r d
    cases here : standing r with
    | absent => simpa [Standing.step, here] using before
    | present =>
      by_cases selects : c.selects r = true
      · simp [Standing.step, selects]
      · simpa [Standing.step, here, selects] using before
    | removed e =>
      by_cases selects : c.selects r = true <;> by_cases same : e = c.direction <;>
        simp_all [Standing.step]

theorem Holds.conflicts_clear (holds : l.Holds standing)
    (apart : Apart standing) (c : Clearing)
    (known : Finset EdgeRecord) (covers : ∀ r, standing r ≠ .absent → r ∈ known) :
    (l.clear c).2.conflicts = l.conflicts + ∑ r ∈ known, ((standing r).reinstates r (.clear c)).toNat := by
  have again : (l.repeated c).toFinset = known.filter fun r => (standing r).reinstates r (.clear c) = true := by
    ext r
    simp only [List.mem_toFinset, holds.mem_repeated, Finset.mem_filter, Standing.reinstates, Bool.and_eq_true,
      beq_iff_eq]
    apply Iff.intro
    · intro h
      obtain ⟨here, selects⟩ := h
      exact ⟨covers r (by simp [here]), selects, here⟩
    · intro h
      obtain ⟨_, selects, here⟩ := h
      exact ⟨here, selects⟩
  have counted : (l.repeated c).length = ∑ r ∈ known, ((standing r).reinstates r (.clear c)).toNat := by
    rw [← List.toFinset_card_of_nodup (l.repeated_nodup c), again, Finset.card_filter]
    refine Finset.sum_congr rfl fun r _ => ?_
    cases (standing r).reinstates r (.clear c) <;> rfl
  rw [clear_conflicts, (holds.sifted apart c).2, counted, List.length_nil, Nat.add_zero]

theorem Holds.clear_answer (holds : l.Holds standing)
    (apart : Apart standing) (c : Clearing) :
    (l.clear c).1 = true ↔
      (∀ r, c.selects r = true → standing r ≠ .present ∧ standing r ≠ .removed c.direction) ∨
        ∃ r, c.selects r = true ∧ standing r = .present := by
  rw [Ledger.clear_answer, (holds.sifted apart c).1]
  simp only [List.eq_nil_iff_forall_not_mem, ne_eq, holds.mem_selected, holds.mem_repeated, not_and]
  apply Iff.intro
  · intro h
    rcases h with ⟨unselected, again⟩ | some
    · exact .inl fun r selects => ⟨fun here => unselected r here selects, fun here => again r here selects⟩
    · simp only [not_forall, not_not] at some
      obtain ⟨r, here, selects⟩ := some
      exact .inr ⟨r, selects, here⟩
  · intro h
    rcases h with none | ⟨r, selects, here⟩
    · exact .inl ⟨fun r here selects => (none r selects).1 here, fun r here selects => (none r selects).2 here⟩
    · exact .inr fun unselected => unselected r here selects

theorem apart_after {calls : List LedgerCall} (unique : LedgerCall.UniqueTriples calls) :
    Apart fun r => Standing.after r calls := fun r s here there =>
  unique r (Standing.registered_of_after_ne_absent here) s (Standing.registered_of_after_ne_absent there)

theorem holds_after {calls : List LedgerCall} (unique : LedgerCall.UniqueTriples calls) :
    (empty.after calls).Holds fun r => Standing.after r calls := by
  induction calls using List.reverseRecOn with
  | nil => exact ⟨fun r => by simp [after, empty, Standing.after], fun r d => by simp [after, empty, Standing.after]⟩
  | append_singleton calls c ih =>
    have holds := ih unique.init
    simp only [after_append, Standing.after_append]
    cases c with
    | register q =>
      refine holds.register fun r here shared => ?_
      have known := Standing.registered_of_after_ne_absent here
      apply unique r _ q _ shared <;> simp [LedgerCall.registered_append, LedgerCall.registered?, known]
    | forget q => exact holds.forget q
    | clear c => exact holds.clear (apart_after unique.init) c

/-- Conflicts may be counted over any records that include the registered ones: no other record ever
comes back. -/
theorem conflicts_after {calls : List LedgerCall} (unique : LedgerCall.UniqueTriples calls)
    (known : Finset EdgeRecord) (covers : ∀ r ∈ LedgerCall.registered calls, r ∈ known) :
    (empty.after calls).conflicts = ∑ r ∈ known, Standing.reinstatements r .absent calls := by
  induction calls using List.reverseRecOn with
  | nil => simp [after, empty, Standing.reinstatements]
  | append_singleton calls c ih =>
    have before := ih unique.init fun r member => covers r (by simp [LedgerCall.registered_append, member])
    simp only [after_append, Standing.reinstatements_append, Finset.sum_add_distrib, ← before]
    cases c with
    | register q => simp [apply, register, Standing.reinstates]
    | forget q => simp [apply, forget, Standing.reinstates]
    | clear c =>
      refine (holds_after unique.init).conflicts_clear (apart_after unique.init) c known fun r here => covers r ?_
      rw [LedgerCall.registered_append]
      exact List.mem_append_left _ (Standing.registered_of_after_ne_absent here)

/-- After any history whose registered records have triples of their own, the present and the removed
records are those that their own automata say, the conflicts are the times a clearing brought a record
back, and a clearing is refused exactly when it selects no present record but one it had removed before. -/
theorem after_eq_standings (calls : List LedgerCall) (unique : LedgerCall.UniqueTriples calls) :
    (∀ r, (empty.after calls).present.contains r = true ↔ Standing.after r calls = .present) ∧
    (∀ r d, (empty.after calls).removed.get? r = some d ↔ Standing.after r calls = .removed d) ∧
    (empty.after calls).conflicts =
      ∑ r ∈ (LedgerCall.registered calls).toFinset, Standing.reinstatements r .absent calls ∧
    ∀ c, ((empty.after calls).clear c).1 = true ↔
      (∀ r, c.selects r = true → Standing.after r calls ≠ .present ∧ Standing.after r calls ≠ .removed c.direction) ∨
        ∃ r, c.selects r = true ∧ Standing.after r calls = .present := by
  have holds := holds_after unique
  refine ⟨holds.present, holds.removed, ?_, fun c => holds.clear_answer (apart_after unique) c⟩
  exact conflicts_after unique _ fun r member => List.mem_toFinset.mpr member

def clearedAgain : List LedgerCall :=
  let likes (n : UInt64) : EdgeRecord := ⟨⟨1⟩, "LIKES", ⟨n⟩, ⟨"Person"⟩, ⟨"Movie"⟩, none⟩
  [.register (likes 2), .register (likes 3), .clear (.outgoing ⟨1⟩ "LIKES" ⟨"Movie"⟩),
    .clear (.incoming ⟨2⟩ "LIKES" ⟨"Person"⟩ false), .clear (.outgoing ⟨1⟩ "LIKES" ⟨"Movie"⟩)]

theorem clearedAgain_eq_standings :
    LedgerCall.UniqueTriples clearedAgain ∧
    (∀ r, (empty.after clearedAgain).present.contains r = true ↔ Standing.after r clearedAgain = .present) ∧
    (∀ r d, (empty.after clearedAgain).removed.get? r = some d ↔ Standing.after r clearedAgain = .removed d) ∧
    (empty.after clearedAgain).conflicts = 2 ∧
    ((empty.after clearedAgain).clear (.outgoing ⟨1⟩ "LIKES" ⟨"Movie"⟩)).1 = true := by
  have unique : LedgerCall.UniqueTriples clearedAgain := by decide
  obtain ⟨present, removed, conflicts, answer⟩ := after_eq_standings clearedAgain unique
  refine ⟨unique, present, removed, ?_, ?_⟩
  · rw [conflicts]
    decide
  · rw [answer]
    right
    exact ⟨⟨⟨1⟩, "LIKES", ⟨2⟩, ⟨"Person"⟩, ⟨"Movie"⟩, none⟩, by decide, by decide⟩

end Ledger

end GraphWrites
