import GraphWrites.Edge
import GraphWrites.Query.Name
import GraphWrites.Variable

namespace GraphWrites

inductive Clause where
  | create (v : Variable) (labels : List String)
  /-- Creates a node unless one with these labels has the same value under the key. -/
  | merge (v : Variable) (labels : List String) (key : String)
  /-- Keeps variables in scope for the next clause. -/
  | carry (vs : List Variable)
  | locate (v : Variable)
  | removeLabels (v : Variable) (labels : List String)
  | addLabels (v : Variable) (labels : List String)
  | patch (v : Variable)
  | connect (singleton : Bool) (v source target : Variable) (type : String) (keys : List String)
      (direction : Direction)
  | report (vs : List Variable)
deriving DecidableEq, Repr

namespace Clause

def listed (vs : List Variable) : String := ", ".intercalate (vs.map Variable.text)

def creating (singleton : Bool) : String := if singleton then "MERGE" else "CREATE"

def pattern (v : Variable) (keys : List String) : String :=
  if keys = [] then ""
  else
    " \x7b" ++ ", ".intercalate (keys.map fun k =>
      Name.quoted k ++ ": $" ++ v.text ++ ".props." ++ Name.quoted k) ++ "\x7d"

def arrow : Direction → String × String
  | .outgoing => ("-[", "]->")
  | .incoming => ("<-[", "]-")

def text : Clause → String
  | create v labels =>
    "CREATE (" ++ v.text ++ Name.labels labels ++ ") SET " ++ v.text ++ " = $" ++ v.text ++ ".props"
  | merge v labels key =>
    "MERGE (" ++ v.text ++ Name.labels labels ++ " \x7b" ++ Name.quoted key ++ ": $" ++ v.text ++
      ".primaryKey\x7d) SET " ++ v.text ++ " = $" ++ v.text ++ ".props"
  | carry vs => "WITH " ++ listed vs
  | locate v => "MATCH (" ++ v.text ++ ") WHERE id(" ++ v.text ++ ") = $" ++ v.text ++ ".nodeId"
  | removeLabels v labels => "REMOVE " ++ v.text ++ Name.labels labels
  | addLabels v labels => "SET " ++ v.text ++ Name.labels labels
  | patch v => "SET " ++ v.text ++ " += $" ++ v.text ++ ".props"
  | connect singleton v source target type keys direction =>
    creating singleton ++ " (" ++ source.text ++ ")" ++ (arrow direction).1 ++ v.text ++ ":" ++ Name.quoted type ++
      pattern v keys ++ (arrow direction).2 ++ "(" ++ target.text ++ ")"
  | report vs => "RETURN " ++ ", ".intercalate (vs.map fun v => "id(" ++ v.text ++ ") AS " ++ v.text)

end Clause

end GraphWrites
