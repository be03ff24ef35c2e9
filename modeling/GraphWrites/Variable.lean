import GraphWrites.Failure

namespace GraphWrites

open Std

structure Variable where
  index : Nat
deriving DecidableEq, Repr, Inhabited

namespace Variable

instance : Ord Variable := ⟨compareOn index⟩

instance : TransOrd Variable := inferInstanceAs (TransCmp (compareOn index))

instance : LawfulEqOrd Variable where
  eq_of_compare {a b} h := by
    change compare a.index b.index = .eq at h
    cases a; cases b; exact congrArg mk (LawfulEqCmp.compare_eq_iff_eq.mp h)

theorem compare_eq_lt_iff {v w : Variable} : compare v w = .lt ↔ v.index < w.index := Nat.compare_eq_lt

def text (v : Variable) : String := "_" ++ v.index.repr

/-- Indexes that a text may name lie below this bound. -/
def indexBound : Nat := Nat.pow 2 32

def dropPlus : List Char → List Char
  | '+' :: cs => cs
  | cs => cs

def index? (digits : List Char) : Option Nat :=
  let n := Nat.ofDigitChars 10 digits 0
  if digits ≠ [] ∧ digits.all Char.isDigit ∧ n < indexBound then some n else none

def ofChars? : List Char → Option Variable
  | '_' :: cs => (index? (dropPlus cs)).map mk
  | _ => none

def ofText? (s : String) : Option Variable := ofChars? s.toList

def ofText (s : String) : Except Failure Variable :=
  match ofText? s with
  | some v => .ok v
  | none => .error (.unknownReference s)

end Variable

end GraphWrites
