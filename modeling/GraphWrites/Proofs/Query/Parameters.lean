import GraphWrites.Proofs.Query.Name
import GraphWrites.Proofs.Query.Reading
import GraphWrites.Proofs.SortedMap
import GraphWrites.Query

namespace GraphWrites

open Placeholder

def Clause.uses : Clause → List Variable
  | create v _ => [v]
  | merge v _ _ => [v, v]
  | locate v => [v]
  | patch v => [v]
  | connect _ v _ _ _ keys _ => keys.map fun _ => v
  | carry _ | removeLabels _ _ | addLabels _ _ | report _ => []

namespace Clause

theorem reads_listed (vs : List Variable) : Reads .plain (listed vs) [] .plain := by
  have comma : Reads .plain ", " [] .plain := by decide
  exact reads_intercalate_plain comma Variable.text vs fun v _ => reads_text v

theorem reads_creating (singleton : Bool) : Reads .plain (creating singleton) [] .plain := by
  cases singleton <;> decide

theorem reads_pattern (v : Variable) (keys : List String) :
    Reads .plain (pattern v keys) (keys.map fun _ => v.text) .plain := by
  by_cases none : keys = []
  · subst none
    exact .empty _
  · have one : ∀ k ∈ keys, Reads .plain (Name.quoted k ++ ": $" ++ v.text ++ ".props." ++ Name.quoted k)
        [v.text] .plain := by
      intro k _
      have lead : Reads .plain ": $" [] (.name []) := by decide
      have field : Reads .plain ".props." [] .plain := by decide
      exact (((reads_quoted k).append lead).use (isParameter_text v) (by decide) field).append (reads_quoted k)
    have comma : Reads .plain ", " [] .plain := by decide
    have joined := reads_intercalate comma _ _ keys one
    have left : Reads .plain " \x7b" [] .plain := by decide
    have right : Reads .plain "\x7d" [] .plain := by decide
    have all := (left.append joined).append right
    rw [List.nil_append, List.append_nil, ← List.map_eq_flatMap] at all
    rw [pattern, if_neg none]
    exact all

theorem reads (c : Clause) : Reads .plain c.text (c.uses.map Variable.text) .plain := by
  have lead : Reads .plain " = $" [] (.name []) := by decide
  have props : Reads .plain ".props" [] .plain := by decide
  cases c with
  | create v labels =>
    have head : Reads .plain "CREATE (" [] .plain := by decide
    have set : Reads .plain ") SET " [] .plain := by decide
    have node := ((head.append (reads_text v)).append (reads_labels labels)).append set
    have whole := ((node.append (reads_text v)).append lead).use (isParameter_text v) (by decide) props
    exact whole
  | merge v labels key =>
    have head : Reads .plain "MERGE (" [] .plain := by decide
    have left : Reads .plain " \x7b" [] .plain := by decide
    have colon : Reads .plain ": $" [] (.name []) := by decide
    have set : Reads .plain ".primaryKey\x7d) SET " [] .plain := by decide
    have node := ((head.append (reads_text v)).append (reads_labels labels)).append left
    have keyed := ((node.append (reads_quoted key)).append colon).use (isParameter_text v) (by decide) set
    have whole := ((keyed.append (reads_text v)).append lead).use (isParameter_text v) (by decide) props
    exact whole
  | carry vs =>
    have head : Reads .plain "WITH " [] .plain := by decide
    exact head.append (reads_listed vs)
  | locate v =>
    have head : Reads .plain "MATCH (" [] .plain := by decide
    have mid : Reads .plain ") WHERE id(" [] .plain := by decide
    have equals : Reads .plain ") = $" [] (.name []) := by decide
    have field : Reads .plain ".nodeId" [] .plain := by decide
    have node := ((head.append (reads_text v)).append mid).append (reads_text v)
    have whole := (node.append equals).use (isParameter_text v) (by decide) field
    exact whole
  | removeLabels v labels =>
    have head : Reads .plain "REMOVE " [] .plain := by decide
    exact (head.append (reads_text v)).append (reads_labels labels)
  | addLabels v labels =>
    have head : Reads .plain "SET " [] .plain := by decide
    exact (head.append (reads_text v)).append (reads_labels labels)
  | patch v =>
    have head : Reads .plain "SET " [] .plain := by decide
    have plus : Reads .plain " += $" [] (.name []) := by decide
    have whole := ((head.append (reads_text v)).append plus).use (isParameter_text v) (by decide) props
    exact whole
  | connect singleton v source target type keys direction =>
    have left : Reads .plain " (" [] .plain := by decide
    have right : Reads .plain ")" [] .plain := by decide
    have again : Reads .plain "(" [] .plain := by decide
    have colon : Reads .plain ":" [] .plain := by decide
    have tail : Reads .plain (arrow direction).1 [] .plain := by cases direction <;> decide
    have head : Reads .plain (arrow direction).2 [] .plain := by cases direction <;> decide
    have start := ((((reads_creating singleton).append left).append (reads_text source)).append right).append tail
    have edge := ((start.append (reads_text v)).append colon).append (reads_quoted type)
    have drawn := ((edge.append (reads_pattern v keys)).append head).append again
    have whole := (drawn.append (reads_text target)).append right
    simp only [List.nil_append, List.append_nil] at whole
    have names : (keys.map fun _ => v).map Variable.text = keys.map fun _ => v.text := List.map_map
    rw [← names] at whole
    exact whole
  | report vs =>
    have head : Reads .plain "RETURN " [] .plain := by decide
    have column : ∀ v ∈ vs, Reads .plain ("id(" ++ v.text ++ ") AS " ++ v.text) [] .plain := by
      intro v _
      have left : Reads .plain "id(" [] .plain := by decide
      have right : Reads .plain ") AS " [] .plain := by decide
      exact ((left.append (reads_text v)).append right).append (reads_text v)
    have comma : Reads .plain ", " [] .plain := by decide
    have whole := head.append (reads_intercalate_plain comma _ vs column)
    exact whole

end Clause

namespace Query

def uses : Query → List String
  | script clauses _ => clauses.flatMap fun c => c.uses.map Variable.text
  | link blocks => blocks.map LinkBlock.parameter
  | patch type _ => [Name.rowsParameter type, Name.rowsParameter type]
  | deleteBetween type _ => [Name.rowsParameter type]
  | deleteById type _ => [Name.rowsParameter type]

/-- A script has a row for each variable whose row its clauses read, and for no other, and the blocks of a
batch name parameters that can stand behind a `$`. The other queries always match. -/
def Matched : Query → Prop
  | script clauses rows => ∀ v, rows.contains v = true ↔ ∃ c ∈ clauses, v ∈ c.uses
  | link blocks => ∀ b ∈ blocks, IsParameter b.parameter
  | _ => True

theorem isPart_sanitized (s : String) : ∀ c ∈ (Name.sanitized s).toList, Name.isPart c = true := by
  intro c member
  rw [Name.sanitized, String.toList_ofList] at member
  obtain ⟨d, _, rfl⟩ := List.mem_map.mp member
  split
  · assumption
  · rfl

theorem isPart_fresh {base : String} (parts : ∀ c ∈ base.toList, Name.isPart c = true) (taken : List String) :
    ∀ c ∈ (Name.fresh base taken).toList, Name.isPart c = true := by
  rcases Name.fresh_eq_or base taken with same | ⟨v, numbered⟩
  · rw [same]
    exact parts
  · intro c member
    rw [numbered, String.toList_append, List.mem_append] at member
    exact member.elim (parts c) Variable.isPart_of_mem_text

theorem eq_empty_of_fresh {base : String} {taken : List String} (empty : Name.fresh base taken = "") : base = "" := by
  rcases Name.fresh_eq_or base taken with same | ⟨v, numbered⟩
  · rw [← same, empty]
  · rw [numbered] at empty
    exact (String.append_eq_empty_iff.mp empty).1

theorem isParameter_rowsParameter (type : String) : IsParameter (Name.rowsParameter type) := by
  constructor
  · intro empty
    have letters : "rows" = "" := (String.append_eq_empty_iff.mp empty).1
    revert letters
    decide
  · intro c member
    rw [Name.rowsParameter, String.toList_append, List.mem_append] at member
    rcases member with member | member
    · have letters : "rows".toList.all Name.isPart = true := by decide
      exact List.all_eq_true.mp letters c member
    · exact isPart_sanitized type c member

theorem isParameter_fresh {base : String} (parameter : IsParameter base) (taken : List String) :
    IsParameter (Name.fresh base taken) :=
  ⟨fun empty => parameter.1 (eq_empty_of_fresh empty), isPart_fresh parameter.2 taken⟩

theorem reads_block (b : LinkBlock) (parameter : IsParameter b.parameter) :
    Reads .plain b.text [b.parameter] .plain := by
  have head : Reads .plain "UNWIND $" [] (.name []) := by decide
  have start : Reads .plain " AS row MATCH (start) WHERE id(start) = row.startNodeId " [] .plain := by decide
  have finish : Reads .plain "MATCH (end) WHERE id(end) = row.endNodeId " [] .plain := by decide
  have tail : Reads .plain " (start)-[rel:" [] .plain := by decide
  have back : Reads .plain "]->(end) RETURN row.relRef AS ref, id(rel) AS id, 'rel' AS type" [] .plain := by decide
  have rows := head.use parameter (by decide) start
  have drawn := ((rows.append finish).append (Clause.reads_creating b.singleton)).append tail
  have whole := (drawn.append (reads_quoted b.type)).append back
  exact whole

theorem reads (q : Query) (matched : q.Matched) : Reads .plain q.text q.uses .plain := by
  cases q with
  | script clauses rows =>
    have space : Reads .plain " " [] .plain := by decide
    exact reads_intercalate space Clause.text _ clauses fun c _ => c.reads
  | link blocks =>
    have union : Reads .plain " UNION ALL " [] .plain := by decide
    have all := reads_intercalate union LinkBlock.text _ blocks fun b member => reads_block b (matched b member)
    rw [← List.map_eq_flatMap] at all
    exact all
  | patch type rows =>
    have parameter := isParameter_rowsParameter type
    have head : Reads .plain "MATCH ()-[rel:" [] .plain := by decide
    have ids : Reads .plain "]->() WHERE id(rel) IN [r IN $" [] (.name []) := by decide
    have each : Reads .plain " | r.relId] FOREACH (row IN [r IN $" [] (.name []) := by decide
    have set : Reads .plain " WHERE r.relId = id(rel)] | SET rel += row.props)" [] .plain := by decide
    have first := ((head.append (reads_quoted type)).append ids).use parameter (by decide) each
    have whole := first.use parameter (by decide) set
    exact whole
  | deleteBetween type rows =>
    have head : Reads .plain "UNWIND $" [] (.name []) := by decide
    have start : Reads .plain " AS row MATCH (start)-[rel:" [] .plain := by decide
    have back : Reads .plain
        "]->(end) WHERE id(start) = row.startNodeId AND id(end) = row.endNodeId DELETE rel" [] .plain := by decide
    have rows := head.use (isParameter_rowsParameter type) (by decide) start
    have whole := (rows.append (reads_quoted type)).append back
    exact whole
  | deleteById type rows =>
    have head : Reads .plain "UNWIND $" [] (.name []) := by decide
    have start : Reads .plain " AS row MATCH ()-[rel:" [] .plain := by decide
    have back : Reads .plain "]->() WHERE id(rel) = row.relId DELETE rel" [] .plain := by decide
    have rows := head.use (isParameter_rowsParameter type) (by decide) start
    have whole := (rows.append (reads_quoted type)).append back
    exact whole

theorem mem_keys_parameters (q : Query) (matched : q.Matched) (name : String) :
    name ∈ q.parameters.keys ↔ name ∈ q.uses := by
  cases q with
  | script clauses rows =>
    rw [parameters, SortedMap.mem_keys_ofList, List.map_map]
    simp only [uses, List.mem_map, List.mem_flatMap, Function.comp_apply]
    apply Iff.intro
    · intro h
      obtain ⟨⟨v, row⟩, member, rfl⟩ := h
      have present : rows.contains v = true :=
        SortedMap.contains_iff.mpr ⟨row, SortedMap.get?_eq_some_iff.mpr member⟩
      obtain ⟨c, clause, used⟩ := (matched v).mp present
      exact ⟨c, clause, v, used, rfl⟩
    · intro h
      obtain ⟨c, clause, v, used, rfl⟩ := h
      obtain ⟨row, found⟩ := SortedMap.contains_iff.mp ((matched v).mpr ⟨c, clause, used⟩)
      exact ⟨(v, row), SortedMap.get?_eq_some_iff.mp found, rfl⟩
  | link blocks =>
    rw [parameters, SortedMap.mem_keys_ofList, List.map_map]
    rfl
  | patch type rows => simp [parameters, uses, SortedMap.mem_keys_ofList]
  | deleteBetween type rows => simp [parameters, uses, SortedMap.mem_keys_ofList]
  | deleteById type rows => simp [parameters, uses, SortedMap.mem_keys_ofList]

theorem get?_parameters_script (clauses : List Clause) {rows : SortedMap Variable Row} {name : String}
    {json : Json} : (script clauses rows).parameters.get? name = some json ↔
      ∃ v row, rows.get? v = some row ∧ v.text = name ∧ row.toJson = json := by
  have distinct : ((rows.entries.map fun e => (e.1.text, e.2.toJson)).map Prod.fst).Nodup := by
    have texts := rows.keys_nodup.map Variable.text_injective
    rw [SortedMap.keys, List.map_map] at texts
    rw [List.map_map]
    exact texts
  rw [parameters, SortedMap.get?_ofList_eq_some_iff distinct]
  simp only [List.mem_map, Prod.exists, Prod.mk.injEq, SortedMap.get?_eq_some_iff]

theorem placeholders_eq_keys (q : Query) (matched : q.Matched) :
    (ofText q.text).toList = q.parameters.keys := by
  rw [(q.reads matched).ofText]
  apply SortedMap.keys_eq_of_forall_mem
  intro name
  rw [q.mem_keys_parameters matched, SortedMap.mem_keys_iff_contains, SortedSet.contains_ofList, decide_eq_true_eq]

theorem statement_eq_ok (q : Query) (matched : q.Matched) : q.statement = .ok ⟨q.text, q.parameters⟩ := by
  rw [statement, Statement.make, if_pos (q.placeholders_eq_keys matched)]

end Query

end GraphWrites
