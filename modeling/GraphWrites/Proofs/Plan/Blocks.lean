import GraphWrites.Proofs.Plan.Batch

namespace GraphWrites.Plan

theorem contains_parameters_link {blocks : List LinkBlock} {name : String} :
    (Query.link blocks).parameters.contains name = true ↔ ∃ b ∈ blocks, b.parameter = name := by
  rw [← SortedMap.mem_keys_iff_contains, Query.parameters, SortedMap.mem_keys_ofList, List.map_map]
  simp

theorem fresh_eq_empty_iff {pre type : String} {taken : List String} :
    Name.fresh (pre ++ Name.sanitized type) taken = "" ↔ pre = "" ∧ type = "" ∧ "" ∉ taken := by
  apply Iff.intro
  · intro empty
    obtain ⟨none, nothing⟩ := String.append_eq_empty_iff.mp (Query.eq_empty_of_fresh empty)
    exact ⟨none, Name.sanitized_eq_empty nothing, empty ▸ Name.fresh_not_mem (pre ++ Name.sanitized type) taken⟩
  · intro h
    obtain ⟨rfl, rfl, free⟩ := h
    exact Name.fresh_of_not_mem free

theorem ofText_parameter_iff {name : String} (parts : ∀ c ∈ name.toList, Name.isPart c = true) :
    Placeholder.ofText ("$" ++ name ++ " ") = SortedSet.ofList [name] ↔ name ≠ "" := by
  apply Iff.intro
  · rintro scanned rfl
    revert scanned
    decide
  · intro some
    exact Placeholder.IsParameter.ofText ⟨some, parts⟩

/-- Parameters are fresh, and they stand behind a `$` as what they are unless they are empty. A batch gives each of its
groups a parameter of its own. -/
theorem parameters_fresh_and_apart :
    (∀ (pre type : String) (taken : List String), (∀ c ∈ pre.toList, Name.isPart c = true) →
      let base := pre ++ Name.sanitized type
      let name := Name.fresh base taken
      name ∉ taken ∧ (∀ c ∈ name.toList, Name.isPart c = true) ∧ (base ∉ taken → name = base) ∧
        (base ∈ taken → (∀ other, Name.Search base taken 1 other ↔ other = name) ∧
          ∃ n, 1 ≤ n ∧ n ≤ taken.length ∧ name = Name.numbered base n ∧
            ∀ m, 1 ≤ m → m < n → Name.numbered base m ∈ taken) ∧
        (Placeholder.ofText ("$" ++ name ++ " ") = SortedSet.ofList [name] ↔ ¬(pre = "" ∧ type = "" ∧ "" ∉ taken))) ∧
    ∀ groups : List (LinkGroup × List (LinkGroup × LinkRow)),
      let blocks := groups.foldl addBlock []
      blocks.map (fun b => (groupOf b, b.rows)) = groups.map (fun g => (g.1, g.2.map Prod.snd)) ∧
        (blocks.map LinkBlock.parameter).Nodup ∧
        (∀ b ∈ blocks, Placeholder.ofText b.text = SortedSet.ofList [b.parameter] ∧
          (Query.link blocks).parameters.get? b.parameter = some (.array (b.rows.map LinkRow.toJson))) ∧
        ∀ name, (Query.link blocks).parameters.contains name = true ↔ ∃ b ∈ blocks, b.parameter = name := by
  constructor
  · intro pre type taken letters base name
    have parts : ∀ c ∈ base.toList, Name.isPart c = true := by
      intro c member
      rw [String.toList_append, List.mem_append] at member
      exact member.elim (letters c) (Query.isPart_sanitized type c)
    have readable := Query.isPart_fresh parts taken
    refine ⟨Name.fresh_not_mem base taken, readable, Name.fresh_of_not_mem, Name.search_fresh, ?_⟩
    rw [ofText_parameter_iff readable, Ne, not_congr fresh_eq_empty_iff]
  · intro groups blocks
    have named := named_foldl_addBlock groups
    refine ⟨?_, named.1, ?_, fun name => contains_parameters_link⟩
    · have all := map_foldl_addBlock groups []
      rwa [List.map_nil, List.nil_append] at all
    · intro b member
      exact ⟨(Query.reads_block b (named.2 b member)).ofText, get?_parameters_link named member⟩

/-- With nothing to be made of, a parameter is empty, and no placeholder is read behind its `$`. -/
theorem empty_parameter_not_read : (∀ c ∈ "".toList, Name.isPart c = true) ∧ Name.fresh ("" ++ Name.sanitized "") [] = "" ∧
    Placeholder.ofText ("$" ++ Name.fresh ("" ++ Name.sanitized "") [] ++ " ") ≠
      SortedSet.ofList [Name.fresh ("" ++ Name.sanitized "") []] :=
  ⟨List.all_eq_true.mp (by decide), by decide, by decide⟩

def lookAlikes : List (LinkGroup × List (LinkGroup × LinkRow)) :=
  [(⟨"A-B", false⟩, [(⟨"A-B", false⟩, ⟨⟨1⟩, ⟨2⟩, ⟨0⟩⟩)]), (⟨"A_B", false⟩, [(⟨"A_B", false⟩, ⟨⟨1⟩, ⟨2⟩, ⟨1⟩⟩)]),
    (⟨"A_B_1", true⟩, [(⟨"A_B_1", true⟩, ⟨⟨2⟩, ⟨1⟩, ⟨2⟩⟩)])]

theorem parameters_lookAlikes :
    (lookAlikes.foldl addBlock []).map LinkBlock.parameter = ["rowsA_B", "rowsA_B_1", "rowsA_B_1_1"] ∧
      ((lookAlikes.foldl addBlock []).map LinkBlock.parameter).Nodup ∧
      Name.fresh ("rows" ++ Name.sanitized "A.B") ["rowsA_B", "rowsA_B_1"] = "rowsA_B_2" ∧
      Placeholder.ofText ("$" ++ "rowsA_B_2" ++ " ") = SortedSet.ofList ["rowsA_B_2"] := by
  obtain ⟨fresh, apart⟩ := parameters_fresh_and_apart
  have named : Name.fresh ("rows" ++ Name.sanitized "A.B") ["rowsA_B", "rowsA_B_1"] = "rowsA_B_2" := by decide
  have letters : ∀ c ∈ "rows".toList, Name.isPart c = true := List.all_eq_true.mp (by decide)
  obtain ⟨-, -, -, -, scanned⟩ := fresh "rows" "A.B" ["rowsA_B", "rowsA_B_1"] letters
  rw [named] at scanned
  exact ⟨by decide, (apart lookAlikes).2.1, named, scanned.mpr (by decide)⟩

end GraphWrites.Plan
