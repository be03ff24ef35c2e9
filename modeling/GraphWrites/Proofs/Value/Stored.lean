import GraphWrites.Proofs.Json.Document
import GraphWrites.Value.Stored

namespace GraphWrites.Value

open Json (Tree Numeral)

inductive FloatFree : Value → Prop where
  | null : FloatFree .null
  | bool (b : Bool) : FloatFree (.bool b)
  | int (i : Int64) : FloatFree (.int i)
  | text (s : String) : FloatFree (.text s)
  | list {items : List Value} (free : ∀ v ∈ items, FloatFree v) : FloatFree (.list items)

theorem storedItems_eq (vs : List Value) : storedItems vs = vs.map stored := by
  induction vs with
  | nil => rfl
  | cons v vs ih => rw [storedItems, ih, List.map_cons]

theorem exact_tagged (k : Kind) {content : Json} (exact : content.Exact) : (tagged k content).Exact := by
  apply Json.Exact.object
  intro field member
  rcases List.mem_cons.mp member with rfl | member
  · exact .text _
  · rw [List.mem_singleton.mp member]
    exact exact

theorem FloatFree.exact {v : Value} (free : v.FloatFree) : v.stored.Exact := by
  induction free with
  | null =>
    apply Json.Exact.object
    intro field member
    rw [List.mem_singleton.mp member]
    exact .text _
  | bool b => exact exact_tagged _ (.bool b)
  | int i => exact exact_tagged _ (.int _)
  | text s => exact exact_tagged _ (.text s)
  | list _ ih =>
    apply exact_tagged _ (.array _)
    intro x member
    rw [storedItems_eq] at member
    obtain ⟨v, item, rfl⟩ := List.mem_map.mp member
    exact ih v item

theorem FloatFree.ofStoredText?_storedText {v : Value} (free : v.FloatFree) :
    ofStoredText? v.storedText = ofTree? depthLimit false v.stored.tree := by
  rw [ofStoredText?, storedText, free.exact.ofText?_compact]
  rfl

theorem nestingItems_le {vs : List Value} {depth : Nat} :
    Json.nestingItems (storedItems vs) ≤ depth ↔ ∀ v ∈ vs, v.stored.nesting ≤ depth := by
  induction vs with
  | nil => simp [storedItems, Json.nestingItems]
  | cons v vs ih => rw [storedItems, Json.nestingItems, Nat.max_le, ih, List.forall_mem_cons]

theorem nesting_list (items : List Value) :
    (list items).stored.nesting = Json.nestingItems (storedItems items) + 2 := by
  simp [stored, tagged, Json.nesting, Json.nestingFields]

theorem nesting_scalar {v : Value} (scalar : ∀ items, v ≠ .list items) : v.stored.nesting = 1 := by
  cases v with
  | list items => exact absurd rfl (scalar items)
  | float x => cases finite : x.isFinite <;> simp [stored, tagged, Json.nesting, Json.nestingFields, finite]
  | _ => rfl

theorem nesting_pos (v : Value) : 0 < v.stored.nesting := by
  by_cases isList : ∃ items, v = .list items
  · obtain ⟨items, rfl⟩ := isList
    rw [nesting_list]
    omega
  · rw [nesting_scalar fun items same => isList ⟨items, same⟩]
    omega

theorem scalar?_ne_list {k : Kind} {t : Tree} {v : Value} (read : scalar? k t = some v) (items : List Value) :
    v ≠ .list items := by
  rintro rfl
  unfold scalar? at read
  split at read
  all_goals (try split at read) <;> (try split at read) <;> simp at read

theorem content?_of_ofTree? {depth : Nat} {kept : Bool} {t : Tree} {v : Value}
    (read : ofTree? (depth + 1) kept t = some v) : v = .null ∨ ∃ kept k t, content? depth kept k t = some v := by
  rw [ofTree?.eq_def] at read
  split at read
  · cases read
  · rename_i same
    obtain rfl := Nat.succ.inj same
    obtain ⟨k, -, read⟩ := Option.bind_eq_some_iff.mp read
    exact .inr ⟨_, _, _, read⟩
  · rename_i same
    obtain rfl := Nat.succ.inj same
    obtain ⟨parts, -, read⟩ := Option.bind_eq_some_iff.mp read
    split at read
    · obtain ⟨k, -, read⟩ := Option.bind_eq_some_iff.mp read
      split at read
      · exact .inl (Option.some_inj.mp read).symm
      · cases read
    · obtain ⟨k, -, read⟩ := Option.bind_eq_some_iff.mp read
      exact .inr ⟨_, _, _, read⟩
    · split at read
      · obtain ⟨k, -, read⟩ := Option.bind_eq_some_iff.mp read
        exact .inr ⟨_, _, _, read⟩
      · cases read
    · cases read
  · cases read

theorem content?_cases {depth : Nat} {kept : Bool} {k : Kind} {t : Tree} {v : Value}
    (read : content? depth kept k t = some v) :
    (∀ items, v ≠ .list items) ∨ ∃ below, ∃ items : List Tree, ∃ values, depth = below + 1 ∧
      items.mapM (ofTree? below kept) = some values ∧ v = .list values := by
  rw [content?.eq_def] at read
  split at read
  · rename_i below _
    obtain ⟨values, items, rfl⟩ := Option.map_eq_some_iff.mp read
    exact .inr ⟨below, _, values, rfl, items, rfl⟩
  · cases read
  · exact .inl (scalar?_ne_list read)

theorem exists_of_mapM {α β : Type} {f : α → Option β} {xs : List α} {ys : List β} (each : xs.mapM f = some ys) :
    ∀ y ∈ ys, ∃ x, f x = some y := by
  induction xs generalizing ys with
  | nil =>
    obtain rfl : [] = ys := by simpa using each
    exact fun y member => absurd member List.not_mem_nil
  | cons x xs ih =>
    rw [List.mapM_cons] at each
    obtain ⟨y, first, each⟩ := Option.bind_eq_some_iff.mp each
    obtain ⟨ys, others, same⟩ := Option.bind_eq_some_iff.mp each
    cases same
    intro z member
    rcases List.mem_cons.mp member with rfl | member
    · exact ⟨x, first⟩
    · exact ih others z member

theorem nesting_le_of_ofTree? {depth : Nat} {kept : Bool} {t : Tree} {v : Value}
    (read : ofTree? depth kept t = some v) : v.stored.nesting ≤ depth := by
  induction depth using Nat.strongRecOn generalizing kept t v with
  | ind depth ih =>
    cases depth with
    | zero => simp [ofTree?] at read
    | succ depth =>
      have shallow (scalar : ∀ items, v ≠ .list items) : v.stored.nesting ≤ depth + 1 := by
        rw [nesting_scalar scalar]
        omega
      rcases content?_of_ofTree? read with rfl | ⟨kept, k, t, content⟩
      · exact shallow nofun
      · rcases content?_cases content with scalar | ⟨below, items, values, rfl, each, rfl⟩
        · exact shallow scalar
        · have items : Json.nestingItems (storedItems values) ≤ below := by
            rw [nestingItems_le]
            intro v member
            obtain ⟨t, read⟩ := exists_of_mapM each v member
            exact ih below (by omega) read
          rw [nesting_list]
          omega

theorem Kind.ofTag?_tag (k : Kind) : Kind.ofTag? k.tag.toList = some k := by cases k <;> rfl

theorem tree_tagged (k : Kind) (content : Json) :
    (tagged k content).tree = .object [(some ['t'], .text (some k.tag.toList)), (some ['v'], content.tree)] := rfl

theorem ofTree?_tagged (depth : Nat) (kept : Bool) (k : Kind) (content : Json) :
    ofTree? (depth + 1) kept (tagged k content).tree = content? depth kept k content.tree := by
  have known : Tree.known Part.ofKey? [(some ['t'], .text (some k.tag.toList)), (some ['v'], content.tree)] =
      some [(.tag, .text (some k.tag.toList)), (.content, content.tree)] := rfl
  rw [tree_tagged, ofTree?, known]
  simp [fieldKind?, Kind.ofTag?_tag]

theorem content?_scalar {k : Kind} (scalar : k ≠ .list) (depth : Nat) (kept : Bool) (t : Tree) :
    content? depth kept k t = scalar? k t := by
  rw [content?.eq_def]
  split
  · exact absurd rfl scalar
  · exact absurd rfl scalar
  · rfl

theorem ofTree?_scalar {k : Kind} (scalar : k ≠ .list) {content : Json} {v : Value}
    (read : scalar? k content.tree = some v) {depth : Nat} (positive : 0 < depth) (kept : Bool) :
    ofTree? depth kept (tagged k content).tree = some v := by
  cases depth with
  | zero => cases positive
  | succ depth => rw [ofTree?_tagged, content?_scalar scalar, read]

theorem scalar?_int (i : Int64) : scalar? .int (Json.int i.toInt).tree = some (.int i) := by
  have low := i.le_toInt
  have high := i.toInt_lt
  have word : -intLimit ≤ i.toInt ∧ i.toInt < intLimit := ⟨low, high⟩
  have read : (Numeral.ofInt i.toInt).read? = some (.int i.toInt) := Json.read?_ofInt low (by omega)
  simp [Json.tree, scalar?, read, word]

theorem scalar?_text (s : String) : scalar? .text (Json.text s).tree = some (.text s) := by
  simp [Json.tree, scalar?]

theorem mapM_ofTree? {depth : Nat} {kept : Bool} {vs : List Value}
    (each : ∀ v ∈ vs, ofTree? depth kept v.stored.tree = some v) :
    (Json.treeItems (storedItems vs)).mapM (ofTree? depth kept) = some vs := by
  induction vs with
  | nil => rfl
  | cons v vs ih =>
    obtain ⟨first, others⟩ := List.forall_mem_cons.mp each
    simp [storedItems, Json.treeItems, first, ih others]

theorem ofTree?_stored {v : Value} (free : v.FloatFree) {depth : Nat} (kept : Bool) (deep : v.stored.nesting ≤ depth) :
    ofTree? depth kept v.stored.tree = some v := by
  have positive := Nat.lt_of_lt_of_le v.nesting_pos deep
  induction free generalizing depth with
  | null =>
    cases depth with
    | zero => cases positive
    | succ depth => rfl
  | bool b => exact ofTree?_scalar (by decide) rfl positive kept
  | int i => exact ofTree?_scalar (by decide) (scalar?_int i) positive kept
  | text s => exact ofTree?_scalar (by decide) (scalar?_text s) positive kept
  | @list items _ ih =>
    rw [nesting_list] at deep
    obtain ⟨below, rfl⟩ := Nat.exists_eq_add_of_le' (Nat.le_of_add_left_le deep)
    have each : ∀ v ∈ items, ofTree? below kept v.stored.tree = some v := by
      intro v member
      have deep := nestingItems_le.mp (Nat.le_of_add_le_add_right deep) v member
      exact ih v member deep (Nat.lt_of_lt_of_le v.nesting_pos deep)
    rw [stored, ofTree?_tagged, Json.tree, content?, mapM_ofTree? each]
    rfl

/-- A value is read back from its text exactly if the reader goes deep enough. -/
theorem FloatFree.ofStoredText?_iff {v : Value} (free : v.FloatFree) :
    ofStoredText? v.storedText = some v ↔ v.stored.nesting ≤ depthLimit := by
  rw [free.ofStoredText?_storedText]
  exact ⟨nesting_le_of_ofTree?, ofTree?_stored free false⟩

/-- Different values have different texts, at any depth. -/
theorem FloatFree.storedText_inj {v w : Value} (first : v.FloatFree) (second : w.FloatFree)
    (same : v.storedText = w.storedText) : v = w := by
  have trees : v.stored.tree = w.stored.tree := by
    have read := first.exact.ofText?_compact
    rw [← storedText, same, storedText, second.exact.ofText?_compact] at read
    exact (Option.some_inj.mp read).symm
  -- a reader that goes deep enough for both
  have left := ofTree?_stored first false (Nat.le_max_left v.stored.nesting w.stored.nesting)
  have right := ofTree?_stored second false (Nat.le_max_right v.stored.nesting w.stored.nesting)
  rw [trees, right] at left
  exact (Option.some_inj.mp left).symm

/-- Values without floating-point numbers are read back from their texts as far as the reader goes, their texts tell
them apart, and the text of a value that was read is read as the same value. -/
theorem storedText_read_back :
    (∀ v : Value, v.FloatFree → (ofStoredText? v.storedText = some v ↔ v.stored.nesting ≤ depthLimit)) ∧
    (∀ v w : Value, v.FloatFree → w.FloatFree → v.storedText = w.storedText → v = w) ∧
    ∀ (s : String) (v : Value), ofStoredText? s = some v → v.FloatFree → ofStoredText? v.storedText = some v := by
  refine ⟨fun v free => free.ofStoredText?_iff, fun v w first second => first.storedText_inj second, ?_⟩
  intro s v read free
  obtain ⟨t, -, read⟩ := Option.bind_eq_some_iff.mp read
  exact free.ofStoredText?_iff.mpr (nesting_le_of_ofTree? read)

def escaped : Value := .list [.int Int64.minValue, .text "\"\\/\x08\x00\x1f\n é𝄞", .list [.list [], .bool true]]

theorem floatFree_escaped : escaped.FloatFree := by
  have inner : (Value.list [.list [], .bool true]).FloatFree := .list (by simp [FloatFree.bool, FloatFree.list])
  exact .list (by simp [FloatFree.int, FloatFree.text, inner])

def reordered : String := "\x7b\"v\":[[\"Int\",3],\x7b\"t\":\"Null\"\x7d],\"x\":[],\"t\":\"List\"\x7d"

theorem tokens_reordered : Json.tokens reordered.toList = some [.openObject, .text (some ['v']), .colon, .openArray,
    .openArray, .text (some ['I', 'n', 't']), .comma, .number (.ofInt 3), .closeArray, .comma,
    .openObject, .text (some ['t']), .colon, .text (some ['N', 'u', 'l', 'l']), .closeObject, .closeArray, .comma,
    .text (some ['x']), .colon, .openArray, .closeArray, .comma,
    .text (some ['t']), .colon, .text (some ['L', 'i', 's', 't']), .closeObject] := by
  decide +kernel

theorem ofStoredText?_reordered : ofStoredText? reordered = some (.list [.int 3, .null]) := by
  rw [ofStoredText?, Tree.ofText?, tokens_reordered]
  rfl

theorem escaped_and_reordered_read_back :
    ofStoredText? escaped.storedText = some escaped ∧
    (Value.int 1).storedText ≠ (Value.text "1").storedText ∧
    ofStoredText? (Value.list [.int 3, .null]).storedText = some (.list [.int 3, .null]) := by
  obtain ⟨back, injective, again⟩ := storedText_read_back
  refine ⟨(back escaped floatFree_escaped).mpr (by decide), ?_, ?_⟩
  · intro same
    exact Value.noConfusion (injective _ _ (.int 1) (.text "1") same)
  · exact again reordered _ ofStoredText?_reordered (.list (by simp [FloatFree.int, FloatFree.null]))

end GraphWrites.Value
