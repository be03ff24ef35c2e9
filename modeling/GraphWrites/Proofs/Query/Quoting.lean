import GraphWrites.Proofs.Query.Reading

namespace GraphWrites.Name

def isInitial (c : Char) : Bool := 'A' ≤ c && c ≤ 'Z' || 'a' ≤ c && c ≤ 'z' || c == '_'

def isFollowing (c : Char) : Bool := isInitial c || '0' ≤ c && c ≤ '9'

def unquote? : List Char → Option (List Char × List Char)
  | [] => none
  | '`' :: '`' :: cs => (unquote? cs).map fun (name, rest) => ('`' :: name, rest)
  | '`' :: cs => some ([], cs)
  | c :: cs => (unquote? cs).map fun (name, rest) => (c :: name, rest)

def readName? : List Char → Option (String × List Char)
  | [] => none
  | '`' :: cs => (unquote? cs).map fun (name, rest) => (String.ofList name, rest)
  | c :: cs =>
    if isInitial c then some (String.ofList (c :: cs.takeWhile isFollowing), cs.dropWhile isFollowing) else none

theorem exists_of_map_name {α β : Type} {read : Option (α × List Char)} {f : α → β} {name : β} {rest : List Char}
    (mapped : (read.map fun (name, rest) => (f name, rest)) = some (name, rest)) : ∃ name, read = some (name, rest) := by
  obtain ⟨⟨name, rest⟩, inner, same⟩ := Option.map_eq_some_iff.mp mapped
  cases same
  exact ⟨name, inner⟩

theorem length_lt_of_unquote? {cs name rest : List Char} (read : unquote? cs = some (name, rest)) :
    rest.length < cs.length := by
  fun_induction unquote? cs generalizing name with
  | case1 => cases read
  | case2 cs ih =>
    obtain ⟨_, inner⟩ := exists_of_map_name read
    have shorter := ih inner
    simp only [List.length_cons]
    omega
  | case3 cs =>
    cases read
    simp
  | case4 c cs _ _ ih =>
    obtain ⟨_, inner⟩ := exists_of_map_name read
    have shorter := ih inner
    simp only [List.length_cons]
    omega

theorem length_lt_of_readName? {cs rest : List Char} {name : String} (read : readName? cs = some (name, rest)) :
    rest.length < cs.length := by
  unfold readName? at read
  split at read
  · cases read
  · obtain ⟨_, inner⟩ := exists_of_map_name read
    have shorter := length_lt_of_unquote? inner
    simp only [List.length_cons]
    omega
  · rename_i c cs _
    split at read
    · cases read
      have shorter := (List.dropWhile_suffix isFollowing (l := cs)).length_le
      simp only [List.length_cons]
      omega
    · cases read

def readLabels? : List Char → Option (List String × List Char)
  | ':' :: cs =>
    match _ : readName? cs with
    | some (l, rest) => (readLabels? rest).map fun (ls, rest) => (l :: ls, rest)
    | none => none
  | cs => some ([], cs)
termination_by cs => cs.length
decreasing_by
  have shorter := length_lt_of_readName? (by assumption)
  simp only [List.length_cons]
  omega

/-- The text continues no name that stands before it. -/
def Ends (rest : List Char) : Prop := ∀ c, rest.head? = some c → isFollowing c = false ∧ c ≠ '`'

theorem isStart_eq : isStart = isInitial := by
  funext c
  have upper : c.isUpper = decide ('A' ≤ c ∧ c ≤ 'Z') := rfl
  have lower : c.isLower = ('a' ≤ c && c ≤ 'z') := rfl
  have alpha : c.isAlpha = (c.isUpper || c.isLower) := rfl
  rw [isStart, isInitial, alpha, upper, lower, Bool.decide_and]

theorem isPart_eq : isPart = isFollowing := by
  funext c
  have digit : c.isDigit = ('0' ≤ c && c ≤ '9') := rfl
  rw [isFollowing, ← isStart_eq, isPart, isStart, Char.isAlphanum, ← digit, Bool.or_right_comm]

theorem unquote?_doubled (cs : List Char) {rest : List Char} (stop : rest.head? ≠ some '`') :
    unquote? (doubled cs ++ '`' :: rest) = some (cs, rest) := by
  induction cs with
  | nil =>
    cases rest with
    | nil => rfl
    | cons c rest =>
      have other : c ≠ '`' := fun same => stop (congrArg some same)
      simp [doubled, unquote?, other]
  | cons c cs ih =>
    by_cases tick : c = '`'
    · subst tick
      have step : unquote? (doubled ('`' :: cs) ++ '`' :: rest) =
          (unquote? (doubled cs ++ '`' :: rest)).map fun (name, rest) => ('`' :: name, rest) := by
        simp [doubled, unquote?]
      rw [step, ih]
      rfl
    · have step : unquote? (doubled (c :: cs) ++ '`' :: rest) =
          (unquote? (doubled cs ++ '`' :: rest)).map fun (name, rest) => (c :: name, rest) := by
        simp [doubled, unquote?, tick]
      rw [step, ih]
      rfl

theorem Ends.takeWhile {rest : List Char} (ends : Ends rest) : rest.takeWhile isFollowing = [] := by
  cases rest with
  | nil => rfl
  | cons c rest =>
    have other := (ends c rfl).1
    simp [other]

theorem Ends.dropWhile {rest : List Char} (ends : Ends rest) : rest.dropWhile isFollowing = rest := by
  cases rest with
  | nil => rfl
  | cons c rest =>
    have other := (ends c rfl).1
    simp [other]

theorem readName?_plain {cs rest : List Char} (plain : isPlain cs = true) (ends : Ends rest) :
    readName? (cs ++ rest) = some (String.ofList cs, rest) := by
  cases cs with
  | nil => cases plain
  | cons c cs =>
    simp only [isPlain, isStart_eq, isPart_eq, Bool.and_eq_true, List.all_eq_true] at plain
    obtain ⟨start, parts⟩ := plain
    -- the reader tries the opening backtick first
    have other : c ≠ '`' := by
      rintro rfl
      revert start
      decide
    have longest : (cs ++ rest).takeWhile isFollowing = cs := by
      rw [List.takeWhile_append_of_pos parts, ends.takeWhile, List.append_nil]
    have behind : (cs ++ rest).dropWhile isFollowing = rest := by
      rw [List.dropWhile_append_of_pos parts, ends.dropWhile]
    simp [readName?, start, longest, behind]

theorem readName?_quoted (name : String) {rest : List Char} (ends : Ends rest) :
    readName? ((quoted name).toList ++ rest) = some (name, rest) := by
  rw [quoted, String.toList_ofList, chars]
  split
  · rename_i plain
    rw [readName?_plain plain ends, String.ofList_toList]
  · have stop : rest.head? ≠ some '`' := fun tick => (ends _ tick).2 rfl
    have inner := unquote?_doubled name.toList stop
    rw [List.cons_append, List.append_assoc, List.singleton_append]
    simp [readName?, inner]

theorem toList_labels_cons (l : String) (ls : List String) :
    (labels (l :: ls)).toList = ':' :: ((quoted l).toList ++ (labels ls).toList) := by
  rw [labels, List.map_cons, String.join_cons, String.toList_append, String.toList_append, ← labels]
  rfl

theorem Ends.behind_labels {rest : List Char} (ends : Ends rest) (ls : List String) :
    Ends ((labels ls).toList ++ rest) := by
  cases ls with
  | nil => exact ends
  | cons l ls =>
    intro c first
    rw [toList_labels_cons] at first
    obtain rfl : ':' = c := Option.some_inj.mp first
    decide

theorem readLabels?_labels (ls : List String) {rest : List Char} (ends : Ends rest) (stop : rest.head? ≠ some ':') :
    readLabels? ((labels ls).toList ++ rest) = some (ls, rest) := by
  induction ls with
  | nil =>
    cases rest with
    | nil => simp [labels, readLabels?]
    | cons c rest =>
      have other : c ≠ ':' := fun same => stop (congrArg some same)
      simp [labels, readLabels?, other]
  | cons l ls ih =>
    have read := readName?_quoted l (ends.behind_labels ls)
    rw [toList_labels_cons, List.cons_append, List.append_assoc, readLabels?]
    split
    · rename_i again
      rw [read] at again
      cases again
      rw [ih]
      rfl
    · rename_i none
      rw [read] at none
      cases none

theorem quoted_injective : Function.Injective quoted := by
  intro a b same
  have ends : Ends [] := fun _ first => by cases first
  have first := readName?_quoted a ends
  rw [same, readName?_quoted b ends] at first
  cases first
  rfl

/-- A name that a query spells is read back as it was given, whatever its characters are and whatever stands behind it
that neither continues it nor quotes. Hence different names are spelled differently, and labels are read back one by one,
as many as there were. -/
theorem names_read_back :
    (∀ (name : String) (rest : List Char), Ends rest → readName? ((quoted name).toList ++ rest) = some (name, rest)) ∧
      Function.Injective quoted ∧
      ∀ (ls : List String) (rest : List Char), Ends rest → rest.head? ≠ some ':' →
        readLabels? ((labels ls).toList ++ rest) = some (ls, rest) :=
  ⟨fun name _ ends => readName?_quoted name ends, quoted_injective, fun ls _ ends stop => readLabels?_labels ls ends stop⟩

theorem ticked_names_read_back :
    Ends "\x7b x".toList ∧ quoted "a`" = "`a```" ∧
      readName? "`a```\x7b x".toList = some ("a`", "\x7b x".toList) ∧
      readLabels? ((labels ["", "9é", "`:B", "Plain"]).toList ++ "\x7b x".toList) =
        some (["", "9é", "`:B", "Plain"], "\x7b x".toList) := by
  obtain ⟨name, -, labels⟩ := names_read_back
  have ends : Ends "\x7b x".toList := by
    intro c first
    obtain rfl : '\x7b' = c := Option.some_inj.mp first
    decide
  have spelled : quoted "a`" = "`a```" := by decide
  have read := name "a`" _ ends
  rw [spelled] at read
  exact ⟨ends, spelled, read, labels _ _ ends (by decide)⟩

end GraphWrites.Name
