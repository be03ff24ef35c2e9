import GraphWrites.Proofs.Intent.Edits
import GraphWrites.Proofs.Plan.Batch
import GraphWrites.Proofs.Plan.Scope

namespace GraphWrites

/-- A node as the database keeps it. -/
structure KeptNode where
  labels : SortedSet String
  props : SortedMap String Json

namespace KeptNode

def addLabels (n : KeptNode) (ls : List String) : KeptNode := { n with labels := n.labels.insertMany ls }

def removeLabels (n : KeptNode) (ls : List String) : KeptNode :=
  { n with labels := n.labels.filter fun l => !ls.contains l }

def override (n : KeptNode) (fields : List (String × Json)) : KeptNode :=
  { n with props := fields.foldl (fun m f => m.insert f.1 f.2) n.props }

def apply (n : KeptNode) : NodeEdit → KeptNode
  | .addLabel l => n.addLabels [l]
  | .removeLabel l => n.removeLabels [l]
  | .setProperty k v => n.override [(k, v.toJson)]
  | .mergeOn _ => n

theorem ext_get? {m n : KeptNode} (labels : ∀ l, m.labels.contains l = true ↔ n.labels.contains l = true)
    (props : ∀ key, m.props.get? key = n.props.get? key) : m = n := by
  obtain ⟨labelsOf, propsOf⟩ := m
  obtain ⟨otherLabels, otherProps⟩ := n
  have sameLabels : labelsOf = otherLabels := SortedSet.ext_contains fun l => Bool.eq_iff_iff.mpr (labels l)
  have sameProps : propsOf = otherProps := SortedMap.ext_get? props
  rw [sameLabels, sameProps]

@[simp]
theorem contains_addLabels {n : KeptNode} {ls : List String} {l : String} :
    (n.addLabels ls).labels.contains l = true ↔ l ∈ ls ∨ n.labels.contains l = true := by
  simp [addLabels, SortedSet.contains_insertMany]

@[simp]
theorem contains_removeLabels {n : KeptNode} {ls : List String} {l : String} :
    (n.removeLabels ls).labels.contains l = true ↔ n.labels.contains l = true ∧ l ∉ ls := by
  simp [removeLabels, SortedSet.contains_filter]

@[simp]
theorem labels_override (n : KeptNode) (fields : List (String × Json)) : (n.override fields).labels = n.labels := rfl

@[simp]
theorem props_addLabels (n : KeptNode) (ls : List String) : (n.addLabels ls).props = n.props := rfl

@[simp]
theorem props_removeLabels (n : KeptNode) (ls : List String) : (n.removeLabels ls).props = n.props := rfl

theorem removeLabels_nil (n : KeptNode) : n.removeLabels [] = n :=
  ext_get? (fun l => by simp) fun _ => rfl

/-- What the clauses of a stored node come to: labels are removed before labels are added. -/
def changedBy (n : KeptNode) (s : StoredNode) : KeptNode :=
  ((n.removeLabels s.removedLabels).addLabels s.labels).override (s.props.entries.map fun e => (e.1, e.2.toJson))

theorem get?_props_override_row (n : KeptNode) (row : PropertyRow) (key : String) :
    (n.override (row.entries.map fun e => (e.1, e.2.toJson))).props.get? key =
      ((row.get? key).map Value.toJson).or (n.props.get? key) := by
  have names : (row.entries.map fun e => (e.1, e.2.toJson)).map Prod.fst = row.keys := List.map_map
  cases found : row.get? key with
  | none =>
    have absent : key ∉ (row.entries.map fun e => (e.1, e.2.toJson)).map Prod.fst := by
      rw [names, SortedMap.mem_keys, found]
      simp
    exact SortedMap.get?_foldl_insert_of_not_mem _ _ absent
  | some v =>
    have member := List.mem_map_of_mem (f := fun e => (e.1, e.2.toJson)) (SortedMap.get?_eq_some_iff.mp found)
    exact SortedMap.get?_foldl_insert_of_mem _ _ (names ▸ row.keys_nodup) member

open NodeEdit

theorem contains_changedBy {s : StoredNode} {node : NodeId} {edits : List NodeEdit} (kept : KeptNode)
    (follows : s.Follows node edits) (l : String) : (kept.changedBy s).labels.contains l = true ↔
      kept.labels.contains l = true ∧ removeLabel l ∉ edits ∨ addLabel l ∈ edits := by
  rw [changedBy, labels_override, contains_addLabels, contains_removeLabels, follows.labels.mem_iff,
    follows.removedLabels.mem_iff, mem_added, mem_removed, or_comm]

theorem get?_props_changedBy {s : StoredNode} {node : NodeId} {edits : List NodeEdit} (kept : KeptNode)
    (follows : s.Follows node edits) (key : String) : (kept.changedBy s).props.get? key =
      ((lastValue? edits key).map Value.toJson).or (kept.props.get? key) := by
  rw [changedBy, get?_props_override_row, follows.props]
  rfl

theorem contains_foldl_apply {edits : List NodeEdit} (apart : ∀ l, addLabel l ∈ edits → removeLabel l ∉ edits)
    (kept : KeptNode) (l : String) : (edits.foldl apply kept).labels.contains l = true ↔
      kept.labels.contains l = true ∧ removeLabel l ∉ edits ∨ addLabel l ∈ edits := by
  induction edits using List.reverseRecOn with
  | nil => simp
  | append_singleton edits last ih =>
    have ih := ih fun l add remove => apart l (List.mem_append_left _ add) (List.mem_append_left _ remove)
    rw [List.foldl_append, List.foldl_cons, List.foldl_nil]
    cases last with
    | addLabel m =>
      rw [apply, contains_addLabels, ih]
      simp only [List.mem_append, List.mem_singleton, reduceCtorEq, or_false, addLabel.injEq]
      tauto
    | removeLabel m =>
      have other : addLabel m ∉ edits := fun add =>
        apart m (List.mem_append_left _ add) (List.mem_append_right _ (List.mem_singleton_self _))
      rw [apply, contains_removeLabels, ih]
      simp only [List.mem_append, List.mem_singleton, reduceCtorEq, or_false, removeLabel.injEq]
      by_cases same : l = m
      · subst same
        simp [other]
      · simp [same]
    | setProperty k v => simpa [apply] using ih
    | mergeOn k => simpa [apply] using ih

theorem get?_props_foldl_apply (edits : List NodeEdit) (kept : KeptNode) (key : String) :
    (edits.foldl apply kept).props.get? key = ((lastValue? edits key).map Value.toJson).or (kept.props.get? key) := by
  induction edits using List.reverseRecOn with
  | nil => rfl
  | append_singleton edits last ih =>
    rw [List.foldl_append, List.foldl_cons, List.foldl_nil]
    cases last with
    | setProperty k v =>
      rw [lastValue?_concat_set, apply, override, List.foldl_cons, List.foldl_nil, SortedMap.get?_insert]
      split
      · rfl
      · exact ih
    | _ =>
      rw [lastValue?_concat_none edits rfl]
      exact ih

/-- Where no label is both added and removed, the clauses of a node come to its edits, one after the other. -/
theorem changedBy_eq_foldl {s : StoredNode} {node : NodeId} {edits : List NodeEdit} (kept : KeptNode)
    (follows : s.Follows node edits) (apart : ∀ l, addLabel l ∈ edits → removeLabel l ∉ edits) :
    kept.changedBy s = edits.foldl apply kept := by
  refine ext_get? (fun l => ?_) fun key => ?_
  · rw [contains_changedBy kept follows, contains_foldl_apply apart]
  · rw [get?_props_changedBy kept follows, get?_props_foldl_apply]

end KeptNode

/-- A database in the middle of a script: its nodes, and which of them the variables in scope stand for. -/
structure Database where
  nodes : SortedMap NodeId KeptNode
  bound : SortedMap Variable NodeId

namespace Database

def change (db : Database) (v : Variable) (f : KeptNode → KeptNode) : Option Database :=
  (db.bound.get? v).map fun n => { db with nodes := db.nodes.modify n f }

/-- Carries a clause out, with the rows of the given parameters. A clause that finds no node ends the script. Clauses
that create are not among those of stored nodes and are not carried out. -/
def run? (given : Parameters) (db : Database) : Clause → Option Database
  | .carry vs => some { db with bound := db.bound.filter fun v _ => vs.contains v }
  | .locate v => do
    let n ← ((given.get? v.text).bind (Json.field? "nodeId")).bind Json.nodeId?
    if db.nodes.contains n then some { db with bound := db.bound.insert v n } else none
  | .removeLabels v ls => db.change v fun n => n.removeLabels ls
  | .addLabels v ls => db.change v fun n => n.addLabels ls
  | .patch v => do
    let fields ← ((given.get? v.text).bind (Json.field? "props")).bind Json.fields?
    db.change v fun n => n.override fields
  | .report _ => some db
  | .create .. | .merge .. | .connect .. => none

def runAll? (given : Parameters) (db : Database) (cs : List Clause) : Option Database := cs.foldlM (run? given) db

variable {given : Parameters} {db : Database} {v : Variable} {n : NodeId}

theorem runAll?_append (cs ds : List Clause) :
    runAll? given db (cs ++ ds) = (runAll? given db cs).bind fun db => runAll? given db ds := List.foldlM_append

section Changes

variable {nodes : SortedMap NodeId KeptNode} {bound : SortedMap Variable NodeId}

theorem runAll?_optional {c : Clause} {idle : Bool} {f : KeptNode → KeptNode} (stands : bound.get? v = some n)
    (changes : idle = false → run? given ⟨nodes, bound⟩ c = change ⟨nodes, bound⟩ v f)
    (same : idle = true → ∀ k, f k = k) :
    runAll? given ⟨nodes, bound⟩ (if idle then [] else [c]) = some ⟨nodes.modify n f, bound⟩ := by
  cases idle with
  | true =>
    rw [SortedMap.modify_of_same _ _ (same rfl)]
    rfl
  | false =>
    have step := changes rfl
    rw [change, stands] at step
    simp [runAll?, step]

theorem runAll?_changes {s : StoredNode} (stands : bound.get? v = some n)
    (row : given.get? v.text = some (Row.stored s.node s.props).toJson) :
    runAll? given ⟨nodes, bound⟩ (Draft.storedChanges v s) = some ⟨nodes.modify n fun k => k.changedBy s, bound⟩ := by
  let fields := s.props.entries.map fun e => (e.1, e.2.toJson)
  have removes : s.removedLabels.isEmpty = true → ∀ k : KeptNode, k.removeLabels s.removedLabels = k := by
    intro idle k
    rw [List.isEmpty_iff.mp idle, KeptNode.removeLabels_nil]
  have adds : s.labels.isEmpty = true → ∀ k : KeptNode, k.addLabels s.labels = k := by
    intro idle k
    rw [List.isEmpty_iff.mp idle]
    rfl
  have sets : s.props.isEmpty = true → ∀ k : KeptNode, k.override fields = k := by
    intro idle k
    have none : fields = [] := List.map_eq_nil_iff.mpr (List.isEmpty_iff.mp idle)
    rw [none]
    rfl
  have patches : ∀ db : Database, s.props.isEmpty = false →
      run? given db (.patch v) = db.change v fun k => k.override fields := by
    intro db some
    simp [run?, row, Row.toJson, some, Json.field?, Json.fields?, PropertyRow.toJson, fields]
  rw [Draft.storedChanges, runAll?_append, runAll?_append, runAll?_optional stands (fun _ => rfl) removes,
    Option.bind_some, runAll?_optional stands (fun _ => rfl) adds, Option.bind_some,
    runAll?_optional stands (patches _) sets, SortedMap.modify_modify, SortedMap.modify_modify]
  rfl

end Changes

/-- The clauses of a stored node change that node and no other, whatever has been introduced before. -/
theorem runAll?_stored {s : StoredNode} {kept : KeptNode} (found : db.nodes.get? s.node = some kept)
    (row : given.get? v.text = some (Row.stored s.node s.props).toJson) (declared : SortedSet Variable) :
    ∃ after, runAll? given db ((NodeIntent.update s).clauses declared v) = some after ∧
      ∀ m, after.nodes.get? m = if m = s.node then some (kept.changedBy s) else db.nodes.get? m := by
  obtain ⟨nodes, bound⟩ := db
  have present : nodes.contains s.node = true := SortedMap.contains_iff.mpr ⟨kept, found⟩
  have locates : ∀ bound, run? given ⟨nodes, bound⟩ (.locate v) = some ⟨nodes, bound.insert v s.node⟩ := by
    intro bound
    simp [run?, row, Row.toJson, Json.field?, Json.nodeId?_int, present]
  have carries : ∃ bound', runAll? given ⟨nodes, bound⟩ (if declared.isEmpty then [] else [.carry declared.toList]) =
      some ⟨nodes, bound'⟩ := by
    split
    · exact ⟨_, rfl⟩
    · exact ⟨_, rfl⟩
  obtain ⟨bound', carried⟩ := carries
  refine ⟨⟨nodes.modify s.node fun k => k.changedBy s, bound'.insert v s.node⟩, ?_, fun m => ?_⟩
  · rw [NodeIntent.clauses, Draft.storedClauses_eq, runAll?_append, carried, Option.bind_some, runAll?,
      List.foldlM_cons, locates]
    exact runAll?_changes (SortedMap.get?_insert_self bound' v s.node) row
  · rw [SortedMap.get?_modify]
    split
    · rename_i same
      rw [same, found]
      rfl
    · rfl

end Database

namespace Draft

open NodeEdit

theorem storedChanges_of_follows {s : StoredNode} {node : NodeId} {edits : List NodeEdit}
    (follows : s.Follows node edits) (v : Variable) :
    storedChanges v s = (if removed edits = [] then [] else [.removeLabels v s.removedLabels]) ++
      (if added edits = [] then [] else [.addLabels v s.labels]) ++ if settings edits = [] then [] else [.patch v] := by
  have unset : s.props.isEmpty = true ↔ settings edits = [] := by
    rw [SortedMap.isEmpty_iff, settings_eq_nil_iff]
    exact forall_congr' fun key => by rw [follows.props]
  simp only [storedChanges, follows.removedLabels.isEmpty_eq, follows.labels.isEmpty_eq, List.isEmpty_iff, unset]

theorem hasChanges_iff {s : StoredNode} {v : Variable} :
    (NodeIntent.update s).hasChanges = true ↔ storedChanges v s ≠ [] := by
  simp only [storedChanges, NodeIntent.hasChanges]
  generalize s.removedLabels.isEmpty = unremoved
  generalize s.labels.isEmpty = unadded
  generalize s.props.isEmpty = unset
  cases unremoved <;> cases unadded <;> cases unset <;> simp

/-- Whatever edits are made to the intent for a stored node, its part of the script carries them out. Behind the `MATCH`
there is a clause for each kind of edit that was made, which names every label once in the order of first mention, and
without edits there is none. Carried out on a database that holds the node, with the parameters of the statement, the
clauses take the removed labels off the node, put the added ones on, also those that were removed, and set each property
to its last value. All else stays as it is. If no label is both added and removed, this is what the edits do one by one. -/
theorem fragment_carries_out_edits (d : Draft) (v : Variable) (node : NodeId) (edits : List NodeEdit) :
    ∃ (removals additions : List String) (changes fragment : List Clause) (next : Draft),
      d.addNode (v, (NodeIntent.stored node).editAll edits) = .ok next ∧
      next.clauses = d.clauses ++ fragment ∧
      fragment = (if d.declared.isEmpty then [] else [.carry d.declared.toList]) ++ .locate v :: changes ∧
      changes = (if removed edits = [] then [] else [.removeLabels v removals]) ++
        (if added edits = [] then [] else [.addLabels v additions]) ++ (if settings edits = [] then [] else [.patch v]) ∧
      FirstMentions (removed edits) removals ∧ removals.Nodup ∧ FirstMentions (added edits) additions ∧ additions.Nodup ∧
      (((NodeIntent.stored node).editAll edits).hasChanges = true ↔ changes ≠ []) ∧
      ∀ (script : List Clause) (db : Database) (kept : KeptNode), db.nodes.get? node = some kept →
        ∃ (after : Database) (changed : KeptNode),
          db.runAll? (Query.script script next.rows).parameters fragment = some after ∧
          (∀ m, after.nodes.get? m = if m = node then some changed else db.nodes.get? m) ∧
          (∀ l, changed.labels.contains l = true ↔
            kept.labels.contains l = true ∧ .removeLabel l ∉ edits ∨ .addLabel l ∈ edits) ∧
          (∀ key, changed.props.get? key = ((lastValue? edits key).map Value.toJson).or (kept.props.get? key)) ∧
          ((∀ l, .addLabel l ∈ edits → .removeLabel l ∉ edits) → changed = edits.foldl KeptNode.apply kept) := by
  obtain ⟨s, edited, follows⟩ := NodeIntent.follows_editAll node edits
  have changes := storedChanges_of_follows follows v
  have written : d.addNode (v, .update s) = .ok (d.introduce (v, .update s)) := addNode_of_hasKey d True.intro
  rw [edited]
  refine ⟨s.removedLabels, s.labels, _, _, _, written, rfl, ?_, rfl, follows.removedLabels, follows.removedLabels.nodup,
    follows.labels, follows.labels.nodup, ?_, fun script db kept found => ?_⟩
  · rw [← changes]
    rfl
  · rw [hasChanges_iff (v := v), changes]
  · have row : (Query.script script (d.introduce (v, .update s)).rows).parameters.get? v.text =
        some (Row.stored s.node s.props).toJson :=
      (Query.get?_parameters_script script).mpr ⟨v, _, SortedMap.get?_insert_self _ _ _, rfl, rfl⟩
    have here : db.nodes.get? s.node = some kept := by rw [follows.node, found]
    obtain ⟨after, ran, nodes⟩ := Database.runAll?_stored here row d.declared
    rw [follows.node] at nodes
    exact ⟨after, kept.changedBy s, ran, nodes, kept.contains_changedBy follows, kept.get?_props_changedBy follows,
      fun apart => kept.changedBy_eq_foldl follows apart⟩

def birthday : List NodeEdit :=
  [.addLabel "Senior", .removeLabel "Junior", .addLabel "Person", .setProperty "age" (.int 41), .addLabel "Senior",
    .mergeOn "name", .removeLabel "Junior", .setProperty "age" (.int 42)]

def ada : KeptNode := ⟨.ofList ["Junior", "Person"], .ofList [("age", .int 40), ("name", .text "Ada")]⟩

theorem birthday_carried_out : ∃ (next : Draft) (after : Database),
    empty.addNode (⟨3⟩, (NodeIntent.stored ⟨7⟩).editAll birthday) = .ok next ∧
    next.clauses.map Clause.text = ["MATCH (_3) WHERE id(_3) = $_3.nodeId", "REMOVE _3:Junior", "SET _3:Senior:Person",
      "SET _3 += $_3.props"] ∧
    (SortedMap.ofList [(⟨7⟩, ada)] : SortedMap NodeId KeptNode).get? ⟨7⟩ = some ada ∧
    Database.runAll? (Query.script [] next.rows).parameters ⟨.ofList [(⟨7⟩, ada)], ∅⟩ next.clauses = some after ∧
    (∀ l, .addLabel l ∈ birthday → .removeLabel l ∉ birthday) ∧
    after.nodes.get? ⟨7⟩ = some (birthday.foldl KeptNode.apply ada) ∧
    (birthday.foldl KeptNode.apply ada).labels.toList = ["Person", "Senior"] := by
  have apart : ∀ l, .addLabel l ∈ birthday → .removeLabel l ∉ birthday := by
    intro l add remove
    simp only [birthday, List.mem_cons, reduceCtorEq, NodeEdit.addLabel.injEq, NodeEdit.removeLabel.injEq, List.not_mem_nil,
      or_false, false_or, or_self] at add remove
    rcases add with rfl | rfl | rfl <;> revert remove <;> decide
  obtain ⟨_, _, _, fragment, next, added, clauses, -, -, -, -, -, -, -, run⟩ :=
    fragment_carries_out_edits empty ⟨3⟩ ⟨7⟩ birthday
  have here : (SortedMap.ofList [(⟨7⟩, ada)] : SortedMap NodeId KeptNode).get? ⟨7⟩ = some ada := by rfl
  obtain ⟨after, changed, ran, nodes, -, -, edits⟩ := run [] ⟨.ofList [(⟨7⟩, ada)], ∅⟩ ada here
  have texts : (empty.addNode (⟨3⟩, (NodeIntent.stored ⟨7⟩).editAll birthday)).map (fun d => d.clauses.map Clause.text) =
      .ok ["MATCH (_3) WHERE id(_3) = $_3.nodeId", "REMOVE _3:Junior", "SET _3:Senior:Person",
        "SET _3 += $_3.props"] := by rfl
  rw [added] at texts
  have all : next.clauses = fragment := clauses
  refine ⟨next, after, added, Except.ok.inj texts, here, all ▸ ran, apart, ?_, by decide⟩
  rw [nodes, if_pos rfl, edits apart]

end Draft

end GraphWrites
