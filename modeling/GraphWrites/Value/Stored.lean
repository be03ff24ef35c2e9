import GraphWrites.Json.Printer
import GraphWrites.Json.Tree
import GraphWrites.Value

namespace GraphWrites

inductive Value.Kind where
  | null
  | bool
  | int
  | float
  | text
  | list
deriving DecidableEq, Repr

namespace Value

def Kind.tag : Kind → String
  | null => "Null"
  | bool => "Bool"
  | int => "Int"
  | float => "Float"
  | text => "String"
  | list => "List"

def Kind.all : List Kind := [null, bool, int, float, text, list]

def Kind.ofTag? (s : List Char) : Option Kind := Kind.all.find? fun k => k.tag.toList == s

def tagged (k : Kind) (content : Json) : Json := .object [("t", .text k.tag), ("v", content)]

mutual

def stored : Value → Json
  | .null => .object [("t", .text Kind.null.tag)]
  | .bool b => tagged .bool (.bool b)
  | .int i => tagged .int (.int i.toInt)
  | .float x => tagged .float (if x.isFinite then .float x else .null)
  | .text s => tagged .text (.text s)
  | .list items => tagged .list (.array (storedItems items))

def storedItems : List Value → List Json
  | [] => []
  | v :: vs => v.stored :: storedItems vs

end

def storedText (v : Value) : String := v.stored.compact

open Json (Tree Content)

inductive Part where
  | tag
  | content
deriving DecidableEq, Repr

def Part.ofKey? : List Char → Option Part
  | ['t'] => some tag
  | ['v'] => some content
  | _ => none

/-- The kind a field names: by its tag, or by an object that maps the tag to null. In content that was kept
for later an empty object stands for null there. -/
def fieldKind? (depth : Nat) (kept : Bool) : Tree → Option Kind
  | .text (some s) => Kind.ofTag? s
  | .object [(some s, .null)] => if 0 < depth then Kind.ofTag? s else none
  | .object [(some s, .object [])] => if kept && 0 < depth then Kind.ofTag? s else none
  | _ => none

/-- The kind the first item of an array names: by its tag, or, in content that was kept for later, by its
place among the kinds. -/
def itemKind? (kept : Bool) : Tree → Option Kind
  | .text (some s) => Kind.ofTag? s
  | .number n =>
    match kept, n.read? with
    | true, some (.int (.ofNat i)) => Kind.all[i]?
    | _, _ => none
  | _ => none

def intLimit : Int := 0x8000000000000000

def scalar? : Kind → Tree → Option Value
  | .null, .null => some .null
  | .bool, .bool b => some (.bool b)
  | .int, .number n =>
    match n.read? with
    | some (.int i) => if -intLimit ≤ i ∧ i < intLimit then some (.int (.ofInt i)) else none
    | _ => none
  | .float, .number n =>
    match n.read? with
    | some (.int i) =>
      let x := Binary64.ofNat i.natAbs
      some (.float (if i < 0 then x.neg else x))
    | some (.float x) => some (.float x)
    | none => none
  | .text, .text (some s) => some (.text (String.ofList s))
  | _, _ => none

/-- How many containers may stand inside each other. -/
def depthLimit : Nat := 127

mutual

/-- Reads a stored value: an object of a tag and a content in either order, or an array of the two.
Content before its tag is kept for later. Each step into a container costs one unit of depth. -/
def ofTree? : Nat → Bool → Tree → Option Value
  | 0, _, _ => none
  | depth + 1, kept, .array [tag, t] => do content? depth kept (← itemKind? kept tag) t
  | depth + 1, kept, .object fields => do
    match ← Tree.known Part.ofKey? fields with
    | [(.tag, tag)] => if (← fieldKind? depth kept tag) = .null then some .null else none
    | [(.tag, tag), (.content, t)] => content? depth kept (← fieldKind? depth kept tag) t
    | [(.content, t), (.tag, tag)] =>
      if kept || t.keepable depth then content? depth true (← fieldKind? depth kept tag) t else none
    | _ => none
  | _ + 1, _, _ => none

def content? : Nat → Bool → Kind → Tree → Option Value
  | depth + 1, kept, .list, .array items => (items.mapM (ofTree? depth kept)).map .list
  | _, _, .list, _ => none
  | _, _, k, t => scalar? k t

end

def ofStoredText? (s : String) : Option Value := do ofTree? depthLimit false (← Tree.ofText? s)

end Value

end GraphWrites
