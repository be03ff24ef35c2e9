import GraphWrites.Intent.Node
import GraphWrites.Proofs.SortedMap
import Mathlib.Data.List.Induction

namespace GraphWrites

namespace NodeEdit

def added? : NodeEdit → Option String
  | addLabel l => some l
  | _ => none

def removed? : NodeEdit → Option String
  | removeLabel l => some l
  | _ => none

def setting? : NodeEdit → Option (String × Value)
  | setProperty k v => some (k, v)
  | _ => none

def added (edits : List NodeEdit) : List String := edits.filterMap added?

def removed (edits : List NodeEdit) : List String := edits.filterMap removed?

def settings (edits : List NodeEdit) : List (String × Value) := edits.filterMap setting?

/-- The last value that a history sets for a property. -/
def lastValue? (edits : List NodeEdit) (key : String) : Option Value := (settings edits).reverse.lookup key

theorem mem_added {edits : List NodeEdit} {l : String} : l ∈ added edits ↔ addLabel l ∈ edits := by
  rw [added, List.mem_filterMap]
  apply Iff.intro
  · intro h
    obtain ⟨edit, member, found⟩ := h
    cases edit <;> cases found
    exact member
  · exact fun member => ⟨_, member, rfl⟩

theorem mem_removed {edits : List NodeEdit} {l : String} : l ∈ removed edits ↔ removeLabel l ∈ edits := by
  rw [removed, List.mem_filterMap]
  apply Iff.intro
  · intro h
    obtain ⟨edit, member, found⟩ := h
    cases edit <;> cases found
    exact member
  · exact fun member => ⟨_, member, rfl⟩

theorem filterMap_concat_some {α : Type} (f : NodeEdit → Option α) (edits : List NodeEdit) {edit : NodeEdit} {a : α}
    (found : f edit = some a) : (edits ++ [edit]).filterMap f = edits.filterMap f ++ [a] := by
  rw [List.filterMap_append, List.filterMap_cons_some found, List.filterMap_nil]

theorem filterMap_concat_none {α : Type} (f : NodeEdit → Option α) (edits : List NodeEdit) {edit : NodeEdit}
    (missing : f edit = none) : (edits ++ [edit]).filterMap f = edits.filterMap f := by
  rw [List.filterMap_append, List.filterMap_cons_none missing, List.filterMap_nil, List.append_nil]

theorem lastValue?_concat_none (edits : List NodeEdit) {edit : NodeEdit} (sets : setting? edit = none) (key : String) :
    lastValue? (edits ++ [edit]) key = lastValue? edits key := by
  rw [lastValue?, settings, filterMap_concat_none setting? edits sets]
  rfl

theorem lastValue?_concat_set (edits : List NodeEdit) (k : String) (v : Value) (key : String) :
    lastValue? (edits ++ [.setProperty k v]) key = if key = k then some v else lastValue? edits key := by
  rw [lastValue?, settings, filterMap_concat_some setting? edits rfl, List.reverse_append, List.reverse_singleton,
    List.singleton_append, List.lookup_cons, ← settings, ← lastValue?]
  by_cases here : key = k
  · simp [here]
  · simp [beq_eq_false_iff_ne.mpr here, here]

theorem settings_eq_nil_iff {edits : List NodeEdit} : settings edits = [] ↔ ∀ key, lastValue? edits key = none := by
  simp only [lastValue?, List.lookup_eq_none_iff, List.mem_reverse, bne_iff_ne]
  apply Iff.intro
  · intro none key s member
    rw [none] at member
    cases member
  · intro unset
    exact List.eq_nil_iff_forall_not_mem.mpr fun s member => unset s.1 s member rfl

end NodeEdit

/-- Labels that stand once each, in the order in which they are first mentioned. -/
structure FirstMentions (mentions labels : List String) : Prop where
  mem_iff : ∀ l, l ∈ labels ↔ l ∈ mentions
  ordered : labels.Pairwise fun a b => mentions.idxOf a < mentions.idxOf b

namespace FirstMentions

variable {mentions labels : List String}

theorem nil : FirstMentions [] [] := ⟨fun _ => Iff.rfl, .nil⟩

theorem nodup (listed : FirstMentions mentions labels) : labels.Nodup :=
  listed.ordered.imp fun below same => Nat.ne_of_lt below (congrArg mentions.idxOf same)

theorem isEmpty_eq (listed : FirstMentions mentions labels) : labels.isEmpty = mentions.isEmpty := by
  rw [Bool.eq_iff_iff, List.isEmpty_iff, List.isEmpty_iff, List.eq_nil_iff_forall_not_mem, List.eq_nil_iff_forall_not_mem]
  exact forall_congr' fun l => not_congr (listed.mem_iff l)

theorem addOnce (listed : FirstMentions mentions labels) (l : String) :
    FirstMentions (mentions ++ [l]) (NodeIntent.addOnce labels l) := by
  have earlier : labels.Pairwise fun a b => (mentions ++ [l]).idxOf a < (mentions ++ [l]).idxOf b := by
    refine listed.ordered.imp_of_mem fun first second below => ?_
    rw [List.idxOf_append_of_mem ((listed.mem_iff _).mp first), List.idxOf_append_of_mem ((listed.mem_iff _).mp second)]
    exact below
  unfold NodeIntent.addOnce
  by_cases known : l ∈ labels
  · rw [if_pos (by simpa using known)]
    refine ⟨fun a => ?_, earlier⟩
    rw [listed.mem_iff, List.mem_append, List.mem_singleton, or_iff_left_of_imp]
    rintro rfl
    exact (listed.mem_iff _).mp known
  · rw [if_neg (by simpa using known)]
    refine ⟨fun a => by rw [List.mem_append, List.mem_append, listed.mem_iff], ?_⟩
    refine List.pairwise_append.mpr ⟨earlier, List.pairwise_singleton _ _, fun a before b last => ?_⟩
    rw [List.mem_singleton.mp last, List.idxOf_append_of_mem ((listed.mem_iff a).mp before),
      List.idxOf_append_of_notMem (fun here => known ((listed.mem_iff l).mpr here))]
    have place := List.idxOf_lt_length_of_mem ((listed.mem_iff a).mp before)
    omega

end FirstMentions

/-- The intent is what a history of edits has made of one to leave a node as it is. -/
structure StoredNode.Follows (n : StoredNode) (node : NodeId) (edits : List NodeEdit) : Prop where
  node : n.node = node
  labels : FirstMentions (NodeEdit.added edits) n.labels
  removedLabels : FirstMentions (NodeEdit.removed edits) n.removedLabels
  props : ∀ key, n.props.get? key = NodeEdit.lastValue? edits key

namespace NodeIntent

open NodeEdit

theorem follows_edit {n : StoredNode} {node : NodeId} {edits : List NodeEdit} (follows : n.Follows node edits)
    (edit : NodeEdit) : ∃ m : StoredNode, (update n).edit edit = update m ∧ m.Follows node (edits ++ [edit]) := by
  obtain ⟨same, labels, removedLabels, props⟩ := follows
  have kept : setting? edit = none → ∀ key, n.props.get? key = lastValue? (edits ++ [edit]) key := by
    intro none key
    rw [props, lastValue?_concat_none edits none]
  cases edit with
  | addLabel l =>
    have mentions : added (edits ++ [.addLabel l]) = added edits ++ [l] := filterMap_concat_some added? edits rfl
    have others : removed (edits ++ [.addLabel l]) = removed edits := filterMap_concat_none removed? edits rfl
    exact ⟨_, rfl, same, mentions ▸ labels.addOnce l, others ▸ removedLabels, kept rfl⟩
  | removeLabel l =>
    have mentions : removed (edits ++ [.removeLabel l]) = removed edits ++ [l] := filterMap_concat_some removed? edits rfl
    have others : added (edits ++ [.removeLabel l]) = added edits := filterMap_concat_none added? edits rfl
    exact ⟨_, rfl, same, others ▸ labels, mentions ▸ removedLabels.addOnce l, kept rfl⟩
  | setProperty k v =>
    have first : added (edits ++ [.setProperty k v]) = added edits := filterMap_concat_none added? edits rfl
    have second : removed (edits ++ [.setProperty k v]) = removed edits := filterMap_concat_none removed? edits rfl
    refine ⟨_, rfl, same, first ▸ labels, second ▸ removedLabels, fun key => ?_⟩
    rw [SortedMap.get?_insert, lastValue?_concat_set, props]
  | mergeOn k =>
    have first : added (edits ++ [.mergeOn k]) = added edits := filterMap_concat_none added? edits rfl
    have second : removed (edits ++ [.mergeOn k]) = removed edits := filterMap_concat_none removed? edits rfl
    exact ⟨_, rfl, same, first ▸ labels, second ▸ removedLabels, kept rfl⟩

theorem follows_editAll (node : NodeId) (edits : List NodeEdit) :
    ∃ n : StoredNode, (stored node).editAll edits = update n ∧ n.Follows node edits := by
  induction edits using List.reverseRecOn with
  | nil => exact ⟨_, rfl, rfl, .nil, .nil, fun _ => rfl⟩
  | append_singleton edits last ih =>
    obtain ⟨n, edited, follows⟩ := ih
    obtain ⟨m, step, follows⟩ := follows_edit follows last
    refine ⟨m, ?_, follows⟩
    rw [editAll, List.foldl_append, show edits.foldl edit _ = update n from edited]
    exact step

end NodeIntent

end GraphWrites
