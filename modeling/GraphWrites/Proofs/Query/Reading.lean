import GraphWrites.Proofs.Variable
import GraphWrites.Query.Clause
import GraphWrites.Query.Placeholder

namespace GraphWrites.Placeholder

namespace Mode

def run (m : Mode) (cs : List Char) : Mode := cs.foldl step m

theorem run_append (m : Mode) (cs rest : List Char) : m.run (cs ++ rest) = (m.run cs).run rest :=
  List.foldl_append

end Mode

def emits : Mode → List Char → List (List Char)
  | _, [] => []
  | m, c :: cs => m.emitted c ++ emits (m.step c) cs

theorem scan_append (m : Mode) (cs rest : List Char) : scan m (cs ++ rest) = emits m cs ++ scan (m.run cs) rest := by
  induction cs generalizing m with
  | nil => rfl
  | cons c cs ih => simp [scan, emits, Mode.run, ih]

theorem emits_append (m : Mode) (cs rest : List Char) :
    emits m (cs ++ rest) = emits m cs ++ emits (m.run cs) rest := by
  induction cs generalizing m with
  | nil => rfl
  | cons c cs ih => simp [emits, Mode.run, ih]

/-- Reading `s` takes the scan from mode `m` to mode `n` and yields `names`. -/
def Reads (m : Mode) (s : String) (names : List String) (n : Mode) : Prop :=
  emits m s.toList = names.map String.toList ∧ m.run s.toList = n

instance (m : Mode) (s : String) (names : List String) (n : Mode) : Decidable (Reads m s names n) :=
  inferInstanceAs (Decidable (_ ∧ _))

theorem Reads.append {m n o : Mode} {s t : String} {names more : List String} (hs : Reads m s names n)
    (ht : Reads n t more o) : Reads m (s ++ t) (names ++ more) o := by
  obtain ⟨emitted, reached⟩ := hs
  constructor
  · rw [String.toList_append, emits_append, emitted, reached, ht.1, List.map_append]
  · rw [String.toList_append, Mode.run_append, reached]
    exact ht.2

theorem Reads.empty (m : Mode) : Reads m "" [] m := ⟨rfl, rfl⟩

theorem Reads.ofText {s : String} {names : List String} (reads : Reads .plain s names .plain) :
    ofText s = SortedSet.ofList names := by
  have all : scan .plain s.toList = names.map String.toList := by
    have split := scan_append .plain s.toList []
    rw [List.append_nil, reads.1, reads.2] at split
    simpa [scan, Mode.finished] using split
  rw [Placeholder.ofText, all, List.map_map]
  congr 1
  simp [Function.comp_def]

theorem behind_part {c : Char} (part : Name.isPart c = true) : Mode.behind c = .plain := by
  have quote : Mode.isQuote c = false := by
    rw [Mode.isQuote, Bool.eq_false_iff]
    intro quote
    simp only [Bool.or_eq_true, beq_iff_eq] at quote
    rcases quote with (rfl | rfl) | rfl <;> revert part <;> decide
  have dollar : ¬c = '$' := by
    intro same
    subst same
    revert part
    decide
  simp [Mode.behind, quote, dollar]

theorem reads_parts {cs : List Char} (parts : ∀ c ∈ cs, Name.isPart c = true) :
    emits .plain cs = [] ∧ Mode.plain.run cs = .plain := by
  induction cs with
  | nil => exact ⟨rfl, rfl⟩
  | cons c cs ih =>
    have step : Mode.plain.step c = .plain := behind_part (parts c List.mem_cons_self)
    have rest := ih fun d member => parts d (List.mem_cons_of_mem _ member)
    simpa [emits, Mode.emitted, Mode.run, step] using rest

theorem reads_text (v : Variable) : Reads .plain v.text [] .plain :=
  reads_parts fun _ member => Variable.isPart_of_mem_text member

theorem reads_doubled (cs : List Char) :
    emits (.quoted '`') (Name.doubled cs) = [] ∧ (Mode.quoted '`').run (Name.doubled cs) = .quoted '`' := by
  induction cs with
  | nil => exact ⟨rfl, rfl⟩
  | cons c cs ih =>
    by_cases tick : c = '`'
    · subst tick
      simpa [Name.doubled, emits, Mode.emitted, Mode.run, Mode.step, Mode.behind, Mode.isQuote] using ih
    · simpa [Name.doubled, tick, emits, Mode.emitted, Mode.run, Mode.step] using ih

theorem isPart_of_isStart {c : Char} (start : Name.isStart c = true) : Name.isPart c = true := by
  simp only [Name.isStart, Name.isPart, Char.isAlphanum, Bool.or_eq_true] at start ⊢
  exact start.imp_left .inl

theorem isPart_of_isPlain {cs : List Char} (plain : Name.isPlain cs = true) :
    ∀ c ∈ cs, Name.isPart c = true := by
  intro c member
  cases cs with
  | nil => cases member
  | cons d cs =>
    simp only [Name.isPlain, Bool.and_eq_true, List.all_eq_true] at plain
    rcases List.mem_cons.mp member with rfl | member
    · exact isPart_of_isStart plain.1
    · exact plain.2 c member

/-- No name that the caller gives, whatever its characters, reads as a placeholder or leaves a quote
open. -/
theorem reads_quoted (name : String) : Reads .plain (Name.quoted name) [] .plain := by
  rw [Reads, Name.quoted, String.toList_ofList, Name.chars]
  split
  · rename_i plain
    exact reads_parts (isPart_of_isPlain plain)
  · obtain ⟨emitted, reached⟩ := reads_doubled name.toList
    constructor
    · change emits (.quoted '`') _ = []
      rw [emits_append, emitted, reached]
      rfl
    · change (Mode.quoted '`').run _ = _
      rw [Mode.run_append, reached]
      rfl

theorem reads_labels (labels : List String) : Reads .plain (Name.labels labels) [] .plain := by
  induction labels with
  | nil => exact .empty _
  | cons l labels ih =>
    have colon : Reads .plain ":" [] .plain := by decide
    rw [Name.labels, List.map_cons, String.join_cons, ← Name.labels]
    exact (colon.append (reads_quoted l)).append ih

/-- A parameter can stand behind a `$`: one or more name characters. -/
def IsParameter (name : String) : Prop := name ≠ "" ∧ ∀ c ∈ name.toList, Name.isPart c = true

theorem isParameter_text (v : Variable) : IsParameter v.text := by
  refine ⟨fun empty => ?_, fun _ member => Variable.isPart_of_mem_text member⟩
  have := congrArg String.toList empty
  rw [Variable.toList_text] at this
  cases this

theorem reads_name_parts (read : List Char) {cs : List Char} (parts : ∀ c ∈ cs, Name.isPart c = true) :
    emits (.name read) cs = [] ∧ (Mode.name read).run cs = .name (read ++ cs) := by
  induction cs generalizing read with
  | nil => simp [emits, Mode.run]
  | cons c cs ih =>
    have part := parts c List.mem_cons_self
    have rest := ih (read ++ [c]) fun d member => parts d (List.mem_cons_of_mem _ member)
    simpa [emits, Mode.emitted, Mode.run, Mode.step, part] using rest

theorem IsParameter.reads {name : String} (parameter : IsParameter name) :
    Reads (.name []) name [] (.name name.toList) := reads_name_parts [] parameter.2

theorem Reads.behind {name t : String} {more : List String} {n : Mode} (parameter : IsParameter name)
    (stop : t.toList.head?.any (fun c => !Name.isPart c) = true) (ht : Reads .plain t more n) :
    Reads (.name name.toList) t (name :: more) n := by
  obtain ⟨emitted, reached⟩ := ht
  cases ht : t.toList with
  | nil => simp [ht] at stop
  | cons c cs =>
    have stop : Name.isPart c = false := by simpa [ht] using stop
    rw [ht] at emitted reached
    have step : (Mode.name name.toList).step c = Mode.plain.step c := by simp [Mode.step, stop]
    have yields : (Mode.name name.toList).emitted c = [name.toList] := by
      rw [Mode.emitted, if_neg (by simp [stop])]
      cases hn : name.toList with
      | nil => exact absurd (String.toList_eq_nil_iff.mp hn) parameter.1
      | cons d ds => rfl
    constructor
    · rw [ht, emits, step, yields, List.map_cons, ← emitted]
      rfl
    · rw [ht, ← reached, Mode.run, List.foldl_cons, step]
      rfl

theorem Reads.use {m n : Mode} {s name t : String} {names more : List String} (hs : Reads m s names (.name []))
    (parameter : IsParameter name) (stop : t.toList.head?.any (fun c => !Name.isPart c) = true)
    (ht : Reads .plain t more n) : Reads m (s ++ name ++ t) (names ++ name :: more) n := by
  have named := hs.append parameter.reads
  rw [List.append_nil] at named
  exact named.append (ht.behind parameter stop)

theorem IsParameter.ofText {name : String} (parameter : IsParameter name) :
    ofText ("$" ++ name ++ " ") = SortedSet.ofList [name] := by
  have head : Reads .plain "$" [] (.name []) := by decide
  have behind : Reads .plain " " [] .plain := by decide
  exact (head.use parameter (by decide) behind).ofText

theorem reads_intercalate {α : Type} {sep : String} (hsep : Reads .plain sep [] .plain) (text : α → String)
    (names : α → List String) (xs : List α) (reads : ∀ x ∈ xs, Reads .plain (text x) (names x) .plain) :
    Reads .plain (sep.intercalate (xs.map text)) (xs.flatMap names) .plain := by
  induction xs with
  | nil => exact .empty _
  | cons x xs ih =>
    have first := reads x List.mem_cons_self
    have rest := ih fun y member => reads y (List.mem_cons_of_mem _ member)
    cases xs with
    | nil => simpa using first
    | cons y xs =>
      rw [List.map_cons, List.map_cons, String.intercalate_cons_cons, List.flatMap_cons]
      have joined := (first.append hsep).append rest
      rwa [List.append_nil] at joined

theorem reads_intercalate_plain {α : Type} {sep : String} (hsep : Reads .plain sep [] .plain) (text : α → String)
    (xs : List α) (reads : ∀ x ∈ xs, Reads .plain (text x) [] .plain) :
    Reads .plain (sep.intercalate (xs.map text)) [] .plain := by
  have joined := reads_intercalate hsep text (fun _ => []) xs reads
  rwa [List.flatMap_eq_nil_iff.mpr fun _ _ => rfl] at joined

end GraphWrites.Placeholder
