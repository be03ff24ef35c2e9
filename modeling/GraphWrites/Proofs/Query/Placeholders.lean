import GraphWrites.Proofs.Query.Reading
import GraphWrites.Proofs.SortedMap

namespace GraphWrites.Placeholder

/-- Every quote that opens within these characters also closes there. -/
inductive Balanced : List Char → Prop where
  | nil : Balanced []
  | other {c : Char} {cs : List Char} (plain : Mode.isQuote c = false) (rest : Balanced cs) : Balanced (c :: cs)
  | span {q : Char} {inner cs : List Char} (quote : Mode.isQuote q = true) (closes : q ∉ inner)
      (rest : Balanced cs) : Balanced (q :: (inner ++ q :: cs))

def Stops (rest : List Char) : Prop := ∀ c, rest.head? = some c → Name.isPart c = false

def Starts (cs name : List Char) : Prop :=
  ∃ after, cs = name ++ after ∧ name ≠ [] ∧ (∀ c ∈ name, Name.isPart c = true) ∧ Stops after

/-- The name stands behind a `$` outside of quotes. -/
def Occurs (cs name : List Char) : Prop :=
  ∃ before behind, cs = before ++ '$' :: behind ∧ Balanced before ∧ Starts behind name

theorem of_isPart {c : Char} (part : Name.isPart c = true) : Mode.isQuote c = false ∧ c ≠ '$' := by
  have behind := behind_part part
  unfold Mode.behind at behind
  split at behind
  · cases behind
  · rename_i plain
    split at behind
    · cases behind
    · rename_i other
      exact ⟨Bool.eq_false_iff.mpr plain, by simpa using other⟩

/-- A text is empty, or begins with a character that means nothing, with a `$` and the name characters behind it, with
a quote that is closed or with one that is not. -/
theorem text_induction {P : List Char → Prop} (nil : P [])
    (other : ∀ c cs, Mode.isQuote c = false → c ≠ '$' → P cs → P (c :: cs))
    (name : ∀ name rest, (∀ c ∈ name, Name.isPart c = true) → Stops rest → P rest → P ('$' :: (name ++ rest)))
    (span : ∀ q inner rest, Mode.isQuote q = true → q ∉ inner → P rest → P (q :: (inner ++ q :: rest)))
    (unclosed : ∀ q inner, Mode.isQuote q = true → q ∉ inner → P (q :: inner)) : ∀ cs, P cs
  | [] => nil
  | c :: cs => by
    have shorter (rest : List Char) (bound : rest.length ≤ cs.length) : P rest :=
      text_induction nil other name span unclosed rest
    cases quote : Mode.isQuote c with
    | true =>
      by_cases closed : c ∈ cs
      · obtain ⟨inner, rest, rfl, closes⟩ := List.eq_append_cons_of_mem closed
        refine span c inner rest quote closes (shorter rest ?_)
        simp only [List.length_append, List.length_cons]
        omega
      · exact unclosed c cs quote closed
    | false =>
      by_cases dollar : c = '$'
      · subst dollar
        have cut := List.takeWhile_append_dropWhile (p := Name.isPart) (l := cs)
        have parts : ∀ c ∈ cs.takeWhile Name.isPart, Name.isPart c = true := by
          intro c member
          exact List.all_eq_true.mp List.all_takeWhile c member
        have stops : Stops (cs.dropWhile Name.isPart) := by
          intro c first
          have last := List.head?_dropWhile_not Name.isPart cs
          simpa [first] using last
        have rest := shorter (cs.dropWhile Name.isPart) (List.dropWhile_suffix _).length_le
        rw [← cut]
        exact name _ _ parts stops rest
      · exact other c cs quote dollar (shorter cs (Nat.le_refl _))
termination_by cs => cs.length

theorem scan_other {c : Char} (plain : Mode.isQuote c = false) (dollar : c ≠ '$') (cs : List Char) :
    scan .plain (c :: cs) = scan .plain cs := by
  simp [scan, Mode.emitted, Mode.step, Mode.behind, plain, dollar]

theorem scan_quoted {q : Char} {inner : List Char} (closes : q ∉ inner) (rest : List Char) :
    scan (.quoted q) (inner ++ rest) = scan (.quoted q) rest := by
  induction inner with
  | nil => rfl
  | cons c inner ih =>
    obtain ⟨different, closes⟩ := not_or.mp (List.mem_cons.not.mp closes)
    have step : (Mode.quoted q).step c = .quoted q := by simp [Mode.step, Ne.symm different]
    rw [List.cons_append, scan, step, ih closes]
    rfl

theorem scan_unclosed {q : Char} {inner : List Char} (quote : Mode.isQuote q = true) (closes : q ∉ inner) :
    scan .plain (q :: inner) = [] := by
  have opened := scan_quoted closes []
  rw [List.append_nil] at opened
  simp [scan, Mode.emitted, Mode.step, Mode.behind, quote, opened, Mode.finished]

theorem scan_span {q : Char} {inner : List Char} (quote : Mode.isQuote q = true) (closes : q ∉ inner)
    (rest : List Char) : scan .plain (q :: (inner ++ q :: rest)) = scan .plain rest := by
  have opened := scan_quoted closes (q :: rest)
  simp [scan, Mode.emitted, Mode.step, Mode.behind, quote, opened]

theorem scan_name {name rest : List Char} (parts : ∀ c ∈ name, Name.isPart c = true) (stops : Stops rest) :
    scan .plain ('$' :: (name ++ rest)) = Mode.finished (.name name) ++ scan .plain rest := by
  obtain ⟨emitted, reached⟩ := reads_name_parts [] parts
  have start : scan .plain ('$' :: (name ++ rest)) = scan (.name name) rest := by
    change scan (.name []) (name ++ rest) = _
    rw [scan_append, emitted, reached]
    rfl
  rw [start]
  cases rest with
  | nil => exact (List.append_nil _).symm
  | cons c rest =>
    have stop := stops c rfl
    simp [scan, Mode.emitted, Mode.step, stop]

theorem occurs_other {c : Char} {cs name : List Char} (plain : Mode.isQuote c = false) (dollar : c ≠ '$') :
    Occurs (c :: cs) name ↔ Occurs cs name := by
  apply Iff.intro
  · rintro ⟨before, behind, same, balanced, starts⟩
    cases balanced with
    | nil => exact absurd (List.cons.inj same).1 dollar
    | other _ rest => exact ⟨_, behind, (List.cons.inj same).2, rest, starts⟩
    | span quote =>
      rw [← (List.cons.inj same).1, plain] at quote
      cases quote
  · rintro ⟨before, behind, rfl, balanced, starts⟩
    exact ⟨c :: before, behind, rfl, .other plain balanced, starts⟩

theorem occurs_dollar {cs name : List Char} : Occurs ('$' :: cs) name ↔ Starts cs name ∨ Occurs cs name := by
  apply Iff.intro
  · rintro ⟨before, behind, same, balanced, starts⟩
    cases balanced with
    | nil =>
      obtain rfl := (List.cons.inj same).2
      exact .inl starts
    | other _ rest => exact .inr ⟨_, behind, (List.cons.inj same).2, rest, starts⟩
    | span quote =>
      rw [← (List.cons.inj same).1] at quote
      cases quote
  · rintro (starts | ⟨before, behind, rfl, balanced, starts⟩)
    · exact ⟨[], cs, rfl, .nil, starts⟩
    · exact ⟨'$' :: before, behind, rfl, .other rfl balanced, starts⟩

theorem behind_quote_unique {q : Char} {inner inner' rest rest' : List Char} (closes : q ∉ inner) (closes' : q ∉ inner')
    (same : inner ++ q :: rest = inner' ++ q :: rest') : rest = rest' := by
  rcases List.append_eq_append_iff.mp same with ⟨more, rfl, behind⟩ | ⟨more, rfl, behind⟩
  · cases more with
    | nil => exact (List.cons.inj behind).2
    | cons c more =>
      rw [(List.cons.inj behind).1] at closes'
      simp at closes'
  · cases more with
    | nil => exact (List.cons.inj behind).2.symm
    | cons c more =>
      rw [(List.cons.inj behind).1] at closes
      simp at closes

theorem occurs_span {q : Char} {inner rest name : List Char} (quote : Mode.isQuote q = true) (closes : q ∉ inner) :
    Occurs (q :: (inner ++ q :: rest)) name ↔ Occurs rest name := by
  apply Iff.intro
  · rintro ⟨before, behind, same, balanced, starts⟩
    cases balanced with
    | nil =>
      rw [(List.cons.inj same).1] at quote
      cases quote
    | other plain =>
      rw [← (List.cons.inj same).1, quote] at plain
      cases plain
    | @span _ inner' cs _ closes' rest =>
      obtain ⟨rfl, same⟩ := List.cons.inj same
      change inner ++ q :: _ = inner' ++ q :: cs ++ '$' :: behind at same
      rw [List.append_assoc, List.cons_append] at same
      exact ⟨cs, behind, behind_quote_unique closes closes' same, rest, starts⟩
  · rintro ⟨before, behind, rfl, balanced, starts⟩
    refine ⟨q :: (inner ++ q :: before), behind, ?_, .span quote closes balanced, starts⟩
    rw [List.cons_append, List.append_assoc, List.cons_append]

theorem not_occurs_unclosed {q : Char} {inner name : List Char} (quote : Mode.isQuote q = true) (closes : q ∉ inner) :
    ¬Occurs (q :: inner) name := by
  rintro ⟨before, behind, same, balanced, starts⟩
  cases balanced with
  | nil =>
    rw [(List.cons.inj same).1] at quote
    cases quote
  | other plain =>
    rw [← (List.cons.inj same).1, quote] at plain
    cases plain
  | span =>
    obtain ⟨rfl, rfl⟩ := List.cons.inj same
    exact closes (by simp)

theorem occurs_parts {run rest name : List Char} (parts : ∀ c ∈ run, Name.isPart c = true) :
    Occurs (run ++ rest) name ↔ Occurs rest name := by
  induction run with
  | nil => rfl
  | cons c run ih =>
    obtain ⟨part, parts⟩ := List.forall_mem_cons.mp parts
    obtain ⟨plain, dollar⟩ := of_isPart part
    rw [List.cons_append, occurs_other plain dollar, ih parts]

theorem takeWhile_parts {run rest : List Char} (parts : ∀ c ∈ run, Name.isPart c = true) (stops : Stops rest) :
    (run ++ rest).takeWhile Name.isPart = run := by
  have none : rest.takeWhile Name.isPart = [] := by
    cases rest with
    | nil => rfl
    | cons c rest => simp [stops c rfl]
  rw [List.takeWhile_append_of_pos parts, none, List.append_nil]

theorem starts_iff {run rest name : List Char} (parts : ∀ c ∈ run, Name.isPart c = true) (stops : Stops rest) :
    Starts (run ++ rest) name ↔ name = run ∧ run ≠ [] := by
  apply Iff.intro
  · rintro ⟨after, same, some, letters, ends⟩
    have longest := takeWhile_parts parts stops
    rw [same, takeWhile_parts letters ends] at longest
    exact ⟨longest, longest ▸ some⟩
  · rintro ⟨rfl, some⟩
    exact ⟨rest, rfl, some, parts, stops⟩

theorem mem_finished {run name : List Char} : name ∈ Mode.finished (.name run) ↔ name = run ∧ run ≠ [] := by
  cases run with
  | nil => simp [Mode.finished]
  | cons c run => simp [Mode.finished]

/-- The scan yields the names that occur, and no others. -/
theorem mem_scan_iff (cs name : List Char) : name ∈ scan .plain cs ↔ Occurs cs name := by
  induction cs using text_induction with
  | nil =>
    apply iff_of_false List.not_mem_nil
    rintro ⟨before, behind, same, -⟩
    simp at same
  | other c cs plain dollar ih => rw [scan_other plain dollar, occurs_other plain dollar, ih]
  | name run rest parts stops ih =>
    rw [scan_name parts stops, occurs_dollar, occurs_parts parts, starts_iff parts stops, List.mem_append, ih,
      mem_finished]
  | span q inner rest quote closes ih => rw [scan_span quote closes, occurs_span quote closes, ih]
  | unclosed q inner quote closes =>
    rw [scan_unclosed quote closes]
    exact iff_of_false List.not_mem_nil (not_occurs_unclosed quote closes)

theorem mem_ofText_iff (text name : String) : name ∈ (ofText text).toList ↔ Occurs text.toList name.toList := by
  rw [← mem_scan_iff, SortedSet.mem_toList, ofText, SortedSet.contains_ofList, decide_eq_true_eq, List.mem_map]
  apply Iff.intro
  · rintro ⟨cs, found, rfl⟩
    rwa [String.toList_ofList]
  · intro found
    exact ⟨name.toList, found, String.ofList_toList⟩

def Mode.isOpen : Mode → Bool
  | quoted _ => true
  | _ => false

theorem run_quoted {q : Char} {inner : List Char} (closes : q ∉ inner) : (Mode.quoted q).run inner = .quoted q := by
  induction inner with
  | nil => rfl
  | cons c inner ih =>
    obtain ⟨different, closes⟩ := not_or.mp (List.mem_cons.not.mp closes)
    have step : (Mode.quoted q).step c = .quoted q := by simp [Mode.step, Ne.symm different]
    rw [Mode.run, List.foldl_cons, step]
    exact ih closes

theorem isOpen_behind (c : Char) : (Mode.behind c).isOpen = Mode.isQuote c := by
  unfold Mode.behind
  cases Mode.isQuote c with
  | true => rfl
  | false => by_cases dollar : c = '$' <;> simp [dollar, Mode.isOpen]

theorem isOpen_step {m : Mode} (closed : m.isOpen = false) {c : Char} (plain : Mode.isQuote c = false) :
    (m.step c).isOpen = false := by
  cases m with
  | plain => exact (isOpen_behind c).trans plain
  | quoted q => cases closed
  | name read =>
    rw [Mode.step]
    split
    · rfl
    · exact (isOpen_behind c).trans plain

theorem step_quote {m : Mode} (closed : m.isOpen = false) {q : Char} (quote : Mode.isQuote q = true) :
    m.step q = .quoted q := by
  have other : Name.isPart q = false := by
    rw [Bool.eq_false_iff]
    intro part
    rw [(of_isPart part).1] at quote
    cases quote
  cases m with
  | quoted q => cases closed
  | _ => simp [Mode.step, Mode.behind, quote, other]

theorem run_span {m : Mode} (closed : m.isOpen = false) {q : Char} {inner : List Char} (quote : Mode.isQuote q = true)
    (closes : q ∉ inner) (rest : List Char) : m.run (q :: (inner ++ q :: rest)) = Mode.plain.run rest := by
  have close : (Mode.quoted q).step q = .plain := by simp [Mode.step]
  calc m.run (q :: (inner ++ q :: rest))
    _ = (m.step q).run (inner ++ q :: rest) := rfl
    _ = (Mode.quoted q).run (q :: rest) := by rw [step_quote closed quote, Mode.run_append, run_quoted closes]
    _ = ((Mode.quoted q).step q).run rest := rfl
    _ = Mode.plain.run rest := by rw [close]

theorem Balanced.isOpen_run {cs : List Char} (balanced : Balanced cs) {m : Mode} (closed : m.isOpen = false) :
    (m.run cs).isOpen = false := by
  induction balanced generalizing m with
  | nil => exact closed
  | other plain _ ih => exact ih (isOpen_step closed plain)
  | span quote closes _ ih =>
    rw [run_span closed quote closes]
    exact ih rfl

theorem Balanced.parts {run cs : List Char} (parts : ∀ c ∈ run, Name.isPart c = true) (balanced : Balanced cs) :
    Balanced (run ++ cs) := by
  induction run with
  | nil => exact balanced
  | cons c run ih =>
    obtain ⟨part, parts⟩ := List.forall_mem_cons.mp parts
    exact .other (of_isPart part).1 (ih parts)

theorem balanced_iff {cs : List Char} : Balanced cs ↔ (Mode.plain.run cs).isOpen = false := by
  refine ⟨fun balanced => balanced.isOpen_run rfl, ?_⟩
  induction cs using text_induction with
  | nil => exact fun _ => .nil
  | other c cs plain dollar ih =>
    intro closed
    have step : Mode.plain.step c = .plain := by simp [Mode.step, Mode.behind, plain, dollar]
    rw [Mode.run, List.foldl_cons, step] at closed
    exact .other plain (ih closed)
  | name run rest parts stops ih =>
    intro closed
    have start : Mode.plain.run ('$' :: (run ++ rest)) = (Mode.name run).run rest := by
      change (Mode.name []).run (run ++ rest) = _
      rw [Mode.run_append, (reads_name_parts [] parts).2, List.nil_append]
    have same : ((Mode.name run).run rest).isOpen = (Mode.plain.run rest).isOpen := by
      cases rest with
      | nil => rfl
      | cons c rest =>
        have step : (Mode.name run).step c = Mode.plain.step c := by simp [Mode.step, stops c rfl]
        rw [Mode.run, List.foldl_cons, step, Mode.run, List.foldl_cons]
    rw [start, same] at closed
    exact .other rfl (.parts parts (ih closed))
  | span q inner rest quote closes ih =>
    intro closed
    rw [run_span rfl quote closes] at closed
    exact .span quote closes (ih closed)
  | unclosed q inner quote closes =>
    intro closed
    rw [Mode.run, List.foldl_cons, step_quote rfl quote, ← Mode.run, run_quoted closes] at closed
    cases closed

instance (cs : List Char) : Decidable (Balanced cs) := decidable_of_iff _ balanced_iff.symm

theorem behind_eq_plain {c : Char} (closed : (Mode.behind c).isOpen = false) (dollar : c ≠ '$') :
    Mode.behind c = .plain := by
  rw [isOpen_behind] at closed
  simp [Mode.behind, closed, dollar]

theorem step_eq_plain {m : Mode} {c : Char} (closed : (m.step c).isOpen = false) (dollar : c ≠ '$')
    (part : Name.isPart c = false) : m.step c = .plain := by
  cases m with
  | plain => exact behind_eq_plain closed dollar
  | quoted q =>
    rw [Mode.step] at closed ⊢
    split at closed
    · rename_i same
      exact if_pos same
    · cases closed
  | name read =>
    rw [Mode.step, if_neg (by simp [part])] at closed ⊢
    exact behind_eq_plain closed dollar

theorem Balanced.run_eq_plain {cs : List Char} (balanced : Balanced cs)
    (last : ∀ c, cs.getLast? = some c → c ≠ '$' ∧ Name.isPart c = false) : Mode.plain.run cs = .plain := by
  rcases List.eq_nil_or_concat cs with rfl | ⟨before, c, rfl⟩
  · rfl
  · rw [List.concat_eq_append] at balanced last ⊢
    obtain ⟨dollar, part⟩ := last c List.getLast?_concat
    have closed := balanced_iff.mp balanced
    rw [Mode.run_append] at closed ⊢
    exact step_eq_plain closed dollar part

theorem mem_ofText_around {a : String} (balanced : Balanced a.toList)
    (last : ∀ c, a.toList.getLast? = some c → c ≠ '$' ∧ Name.isPart c = false) (n b name : String) :
    name ∈ (ofText (a ++ Name.quoted n ++ b)).toList ↔ name ∈ (ofText a).toList ∨ name ∈ (ofText b).toList := by
  have plain := balanced.run_eq_plain last
  obtain ⟨none, closed⟩ := reads_quoted n
  have alone : scan .plain a.toList = emits .plain a.toList := by
    have split := scan_append .plain a.toList []
    rw [List.append_nil, plain] at split
    simpa [scan, Mode.finished] using split
  have whole : scan .plain (a ++ Name.quoted n ++ b).toList = scan .plain a.toList ++ scan .plain b.toList := by
    rw [String.toList_append, String.toList_append, List.append_assoc, scan_append, plain, scan_append, none, closed,
      alone]
    rfl
  rw [mem_ofText_iff, mem_ofText_iff, mem_ofText_iff, ← mem_scan_iff, ← mem_scan_iff, ← mem_scan_iff, whole,
    List.mem_append]

end GraphWrites.Placeholder
