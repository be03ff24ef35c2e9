import GraphWrites.Binary64

namespace GraphWrites

/-- A JSON document. Fields are written in list order. -/
inductive Json where
  | null
  | bool (b : Bool)
  | int (i : Int)
  | float (x : Binary64)
  | text (s : String)
  | array (items : List Json)
  | object (fields : List (String × Json))
deriving Repr, Inhabited

end GraphWrites
