import GraphWrites.Json
import GraphWrites.SortedMap

namespace GraphWrites

inductive Value where
  | null
  | bool (b : Bool)
  | int (i : Int64)
  | float (x : Binary64)
  | text (s : String)
  | list (items : List Value)
deriving Repr, Inhabited

namespace Value

mutual

/-- The value as a parameter. JSON has no form for infinities and NaN, which become null. -/
def toJson : Value → Json
  | null => .null
  | bool b => .bool b
  | int i => .int i.toInt
  | float x => if x.isFinite then .float x else .null
  | text s => .text s
  | list items => .array (itemsToJson items)

def itemsToJson : List Value → List Json
  | [] => []
  | v :: vs => v.toJson :: itemsToJson vs

end

mutual

/-- Equality of values, with numbers for floats: NaN differs from itself and the zeros are equal. -/
def same : Value → Value → Bool
  | null, null => true
  | bool a, bool b => a == b
  | int a, int b => a == b
  | float x, float y => x.sameNumber y
  | text a, text b => a == b
  | list xs, list ys => sameItems xs ys
  | _, _ => false

def sameItems : List Value → List Value → Bool
  | [], [] => true
  | x :: xs, y :: ys => x.same y && sameItems xs ys
  | _, _ => false

end

def ofOption {α : Type} (f : α → Value) : Option α → Value
  | none => null
  | some a => f a

def ofList {α : Type} (f : α → Value) (xs : List α) : Value := list (xs.map f)

end Value

/-- Properties by name. The last value set for a name counts. -/
abbrev PropertyRow := SortedMap String Value

def PropertyRow.toJson (row : PropertyRow) : Json := .object (row.entries.map fun e => (e.1, e.2.toJson))

end GraphWrites
