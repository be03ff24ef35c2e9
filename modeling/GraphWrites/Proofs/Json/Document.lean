import GraphWrites.Json.Printer
import GraphWrites.Json.Tree
import GraphWrites.Proofs.Json.Token

namespace GraphWrites.Json

/-- A document whose numbers are whole. -/
inductive Exact : Json → Prop where
  | null : Exact .null
  | bool (b : Bool) : Exact (.bool b)
  | int (i : Int) : Exact (.int i)
  | text (s : String) : Exact (.text s)
  | array {items : List Json} (exact : ∀ x ∈ items, Exact x) : Exact (.array items)
  | object {fields : List (String × Json)} (exact : ∀ f ∈ fields, Exact f.2) : Exact (.object fields)

mutual

def tree : Json → Tree
  | .null => .null
  | .bool b => .bool b
  | .int i => .number (.ofInt i)
  | .float x => if x.isFinite then .number (.ofBinary64 x) else .null
  | .text s => .text (some s.toList)
  | .array items => .array (treeItems items)
  | .object fields => .object (treeFields fields)

def treeItems : List Json → List Tree
  | [] => []
  | x :: xs => x.tree :: treeItems xs

def treeFields : List (String × Json) → List (Content × Tree)
  | [] => []
  | (k, x) :: fs => (some k.toList, x.tree) :: treeFields fs

end

mutual

def nesting : Json → Nat
  | .array items => nestingItems items + 1
  | .object fields => nestingFields fields + 1
  | _ => 0

def nestingItems : List Json → Nat
  | [] => 0
  | x :: xs => max x.nesting (nestingItems xs)

def nestingFields : List (String × Json) → Nat
  | [] => 0
  | (_, x) :: fs => max x.nesting (nestingFields fs)

end

theorem endsNumber_comma (rest : List Char) : EndsNumber (Token.comma.chars ++ rest) := by
  intro c first
  obtain rfl : ',' = c := Option.some_inj.mp first
  decide

theorem endsNumber_closeArray (rest : List Char) : EndsNumber (Token.closeArray.chars ++ rest) := by
  intro c first
  obtain rfl : ']' = c := Option.some_inj.mp first
  decide

theorem endsNumber_closeObject (rest : List Char) : EndsNumber (Token.closeObject.chars ++ rest) := by
  intro c first
  obtain rfl : '\x7d' = c := Option.some_inj.mp first
  decide

def Separable (ts : List Token) : Prop :=
  ∀ rest more, EndsNumber rest → Lexes rest more → Lexes (ts.flatMap Token.chars ++ rest) (ts ++ more)

namespace Separable

theorem nil : Separable [] := fun _ _ _ lexes => lexes

theorem append {ts us : List Token} (first : Separable ts) (second : Separable us)
    (ends : ∀ rest, EndsNumber rest → EndsNumber (us.flatMap Token.chars ++ rest)) : Separable (ts ++ us) := by
  intro rest more stop lexes
  rw [List.flatMap_append, List.append_assoc, List.append_assoc]
  exact first _ _ (ends rest stop) (second rest more stop lexes)

theorem cons {t : Token} {ts : List Token} (whole : t.Whole) (other : ∀ n, t ≠ .number n) (second : Separable ts) :
    Separable (t :: ts) := by
  intro rest more stop lexes
  rw [List.flatMap_cons, List.append_assoc, List.cons_append]
  refine (second rest more stop lexes).cons whole fun number => ?_
  obtain ⟨n, same⟩ := number
  exact absurd same (other n)

theorem int (i : Int) : Separable [.number (.ofInt i)] := by
  intro rest more stop lexes
  rw [List.flatMap_singleton]
  exact lexes.cons ⟨i, rfl⟩ fun _ => stop

end Separable

theorem endsNumber_printedItems (xs : List Json) {rest : List Char} (ends : EndsNumber rest) :
    EndsNumber ((printedItems xs).flatMap Token.chars ++ rest) := by
  cases xs with
  | nil => exact ends
  | cons x xs =>
    rw [printedItems, List.flatMap_cons, List.append_assoc]
    exact endsNumber_comma _

theorem endsNumber_printedFields (fs : List (String × Json)) {rest : List Char} (ends : EndsNumber rest) :
    EndsNumber ((printedFields fs).flatMap Token.chars ++ rest) := by
  cases fs with
  | nil => exact ends
  | cons f fs =>
    rw [printedFields, List.flatMap_cons, List.append_assoc]
    exact endsNumber_comma _

theorem separable_printedItems {xs : List Json} (each : ∀ x ∈ xs, Separable x.printed) :
    Separable (printedItems xs) := by
  induction xs with
  | nil => exact Separable.nil
  | cons x xs ih =>
    obtain ⟨first, others⟩ := List.forall_mem_cons.mp each
    have items := first.append (ih others) fun _ => endsNumber_printedItems xs
    rw [printedItems]
    exact items.cons trivial nofun

theorem separable_printedFields {fs : List (String × Json)} (each : ∀ f ∈ fs, Separable f.2.printed) :
    Separable (printedFields fs) := by
  induction fs with
  | nil => exact Separable.nil
  | cons f fs ih =>
    obtain ⟨first, others⟩ := List.forall_mem_cons.mp each
    have fields := first.append (ih others) fun _ => endsNumber_printedFields fs
    rw [printedFields]
    have value := fields.cons (t := .colon) trivial nofun
    have name := value.cons (t := .text (some f.1.toList)) ⟨_, rfl⟩ nofun
    exact name.cons trivial nofun

theorem Exact.separable {j : Json} (exact : j.Exact) : Separable j.printed := by
  induction exact with
  | null => exact Separable.nil.cons trivial nofun
  | bool b => exact Separable.nil.cons trivial nofun
  | int i => exact Separable.int i
  | text s => exact Separable.nil.cons ⟨_, rfl⟩ nofun
  | @array items _ ih =>
    have close : Separable [.closeArray] := Separable.nil.cons trivial nofun
    cases items with
    | nil => exact close.cons trivial nofun
    | cons x xs =>
      obtain ⟨first, others⟩ := List.forall_mem_cons.mp ih
      have items := first.append (separable_printedItems others) fun _ => endsNumber_printedItems xs
      have closed := items.append close fun rest _ => endsNumber_closeArray rest
      exact closed.cons trivial nofun
  | @object fields _ ih =>
    have close : Separable [.closeObject] := Separable.nil.cons trivial nofun
    cases fields with
    | nil => exact close.cons trivial nofun
    | cons f fs =>
      obtain ⟨first, others⟩ := List.forall_mem_cons.mp ih
      have fields := first.append (separable_printedFields others) fun _ => endsNumber_printedFields fs
      have closed := fields.append close fun rest _ => endsNumber_closeObject rest
      have value := closed.cons (t := .colon) trivial nofun
      have name := value.cons (t := .text (some f.1.toList)) ⟨_, rfl⟩ nofun
      exact name.cons trivial nofun

theorem Exact.tokens_chars {j : Json} (exact : j.Exact) : tokens j.chars = some j.printed := by
  have lexes := exact.separable [] [] nofun Lexes.nil
  rw [List.append_nil, List.append_nil] at lexes
  exact lexes.tokens

theorem Exact.printed_eq_cons {j : Json} (exact : j.Exact) :
    ∃ t ts, j.printed = t :: ts ∧ t ≠ .closeArray := by
  cases exact with
  | @array items _ => cases items <;> exact ⟨_, _, rfl, nofun⟩
  | @object fields _ => cases fields <;> exact ⟨_, _, rfl, nofun⟩
  | _ => exact ⟨_, _, rfl, nofun⟩

def Readable (j : Json) : Prop :=
  ∀ fuel rest, j.printed.length ≤ fuel → Tree.read fuel (j.printed ++ rest) = some (j.tree, rest)

theorem readItems_printedItems {xs : List Json} (each : ∀ x ∈ xs, Readable x) (fuel : Nat) (rest : List Token)
    (bound : (printedItems xs).length < fuel) :
    Tree.readItems fuel (printedItems xs ++ .closeArray :: rest) = some (treeItems xs, rest) := by
  induction xs generalizing fuel with
  | nil =>
    cases fuel with
    | zero => cases bound
    | succ fuel => rfl
  | cons x xs ih =>
    obtain ⟨first, others⟩ := List.forall_mem_cons.mp each
    rw [printedItems, List.length_cons, List.length_append] at bound
    cases fuel with
    | zero => cases bound
    | succ fuel =>
      have head := first fuel (printedItems xs ++ .closeArray :: rest) (by omega)
      have tail := ih others fuel (by omega)
      rw [printedItems, List.cons_append, List.append_assoc, Tree.readItems, head]
      simp [tail, treeItems]

theorem readFields_printedFields {fs : List (String × Json)} (each : ∀ f ∈ fs, Readable f.2) (fuel : Nat)
    (rest : List Token) (bound : (printedFields fs).length < fuel) :
    Tree.readFields fuel (printedFields fs ++ .closeObject :: rest) = some (treeFields fs, rest) := by
  induction fs generalizing fuel with
  | nil =>
    cases fuel with
    | zero => cases bound
    | succ fuel => rfl
  | cons f fs ih =>
    obtain ⟨first, others⟩ := List.forall_mem_cons.mp each
    rw [printedFields] at bound
    simp only [List.length_cons, List.length_append] at bound
    cases fuel with
    | zero => cases bound
    | succ fuel =>
      have head := first fuel (printedFields fs ++ .closeObject :: rest) (by omega)
      have tail := ih others fuel (by omega)
      rw [printedFields, List.cons_append, List.cons_append, List.cons_append, List.append_assoc, Tree.readFields, head]
      simp [tail, treeFields]

theorem Exact.readable {j : Json} (exact : j.Exact) : Readable j := by
  induction exact with
  | @array items exact ih =>
    intro fuel rest bound
    cases items with
    | nil =>
      cases fuel with
      | zero => cases bound
      | succ fuel => rfl
    | cons x xs =>
      obtain ⟨first, others⟩ := List.forall_mem_cons.mp ih
      obtain ⟨t, ts, begins, opens⟩ := (exact x List.mem_cons_self).printed_eq_cons
      rw [printed] at bound ⊢
      simp only [List.length_cons, List.length_append, List.length_nil] at bound
      cases fuel with
      | zero => cases bound
      | succ fuel =>
        have head := first fuel (printedItems xs ++ .closeArray :: rest) (by omega)
        have tail := readItems_printedItems others fuel rest (by rw [begins] at bound; simp at bound; omega)
        rw [List.cons_append, List.append_assoc, List.append_assoc, List.singleton_append, Tree.read, head]
        · simp [tail, tree, treeItems]
        · intro ts same
          rw [begins] at same
          exact opens (List.cons.inj same).1
  | @object fields exact ih =>
    intro fuel rest bound
    cases fields with
    | nil =>
      cases fuel with
      | zero => cases bound
      | succ fuel => rfl
    | cons f fs =>
      obtain ⟨first, others⟩ := List.forall_mem_cons.mp ih
      rw [printed] at bound ⊢
      simp only [List.length_cons, List.length_append, List.length_nil] at bound
      cases fuel with
      | zero => cases bound
      | succ fuel =>
        have head := first fuel (printedFields fs ++ .closeObject :: rest) (by omega)
        have tail := readFields_printedFields others fuel rest (by omega)
        simp only [List.cons_append, List.append_assoc, List.nil_append]
        rw [Tree.read, head]
        simp [tail, tree, treeFields]
  | _ =>
    intro fuel rest bound
    cases fuel with
    | zero => cases bound
    | succ fuel => rfl

/-- A document without floating-point numbers is read back from its text. -/
theorem Exact.ofText?_compact {j : Json} (exact : j.Exact) : Tree.ofText? j.compact = some j.tree := by
  have read := exact.readable j.printed.length [] (Nat.le_refl _)
  rw [List.append_nil] at read
  simp [Tree.ofText?, compact, exact.tokens_chars, Tree.ofTokens?, read]

end GraphWrites.Json
