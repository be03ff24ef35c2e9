import GraphWrites.Query.Name
import GraphWrites.Variable

namespace GraphWrites.Variable

theorem toList_text (v : Variable) : v.text.toList = '_' :: Nat.toDigits 10 v.index := by
  rw [text, String.toList_append, Nat.toList_repr]
  rfl

theorem text_injective : Function.Injective text := by
  intro v w same
  have digits := congrArg String.toList same
  simp only [toList_text, List.cons.injEq, true_and] at digits
  have index := congrArg (fun cs => Nat.ofDigitChars 10 cs 0) digits
  simp only [Nat.ofDigitChars_ten_toDigits] at index
  cases v; cases w
  exact congrArg mk index

theorem isPart_of_isDigit {c : Char} (digit : c.isDigit = true) : Name.isPart c = true := by
  simp [Name.isPart, Char.isAlphanum, digit]

theorem isPart_of_mem_repr {n : Nat} {c : Char} (member : c ∈ n.repr.toList) : Name.isPart c = true := by
  rw [Nat.toList_repr] at member
  exact isPart_of_isDigit (Nat.isDigit_of_mem_toDigits (by decide) (by decide) member)

theorem isPart_of_mem_text {v : Variable} {c : Char} (member : c ∈ v.text.toList) : Name.isPart c = true := by
  rw [toList_text, ← Nat.toList_repr] at member
  rcases List.mem_cons.mp member with rfl | member
  · rfl
  · exact isPart_of_mem_repr member

theorem dropPlus_of_digits {cs : List Char} (digits : ∀ c ∈ cs, c.isDigit = true) : dropPlus cs = cs := by
  unfold dropPlus
  split
  · have plus := digits '+' List.mem_cons_self
    cases plus
  · rfl

theorem ofText?_text {v : Variable} (bound : v.index < indexBound) : ofText? v.text = some v := by
  have all : ∀ c ∈ Nat.toDigits 10 v.index, c.isDigit = true :=
    fun c member => Nat.isDigit_of_mem_toDigits (by decide) (by decide) member
  have some : Nat.toDigits 10 v.index ≠ [] := Nat.toDigits_ne_nil
  rw [ofText?, toList_text, ofChars?, dropPlus_of_digits all, index?, Nat.ofDigitChars_ten_toDigits,
    if_pos ⟨some, List.all_eq_true.mpr all, bound⟩]
  rfl

end GraphWrites.Variable
