import GraphWrites.Query.Name
import GraphWrites.SortedMap

namespace GraphWrites.Placeholder

inductive Mode where
  | plain
  | quoted (quote : Char)
  | name (read : List Char)
deriving DecidableEq, Repr

namespace Mode

def isQuote (c : Char) : Bool := c == '`' || c == '\'' || c == '"'

def behind (c : Char) : Mode := if isQuote c then quoted c else if c == '$' then name [] else plain

def step : Mode → Char → Mode
  | plain, c => behind c
  | quoted q, c => if c == q then plain else quoted q
  | name cs, c => if Name.isPart c then name (cs ++ [c]) else behind c

/-- The name that ends here. A lone `$` names nothing. -/
def finished : Mode → List (List Char)
  | name (c :: cs) => [c :: cs]
  | _ => []

def emitted : Mode → Char → List (List Char)
  | name cs, c => if Name.isPart c then [] else (name cs).finished
  | _, _ => []

end Mode

def scan : Mode → List Char → List (List Char)
  | m, [] => m.finished
  | m, c :: cs => m.emitted c ++ scan (m.step c) cs

/-- The placeholders of a text, in order and without repetition. -/
def ofText (text : String) : SortedSet String :=
  SortedSet.ofList ((scan .plain text.toList).map String.ofList)

end GraphWrites.Placeholder
