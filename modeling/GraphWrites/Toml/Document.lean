import GraphWrites.Toml.Scalar

namespace GraphWrites.Toml

open Reader

def isBare (c : Char) : Bool := c.isAlphanum || c == '_' || c == '-'

def bareKey : Reader String := do
  match ← takeWhile isBare with
  | [] => failure
  | cs => return String.ofList cs

def simpleKey : Reader String := (String.ofList <$> (lineString '"' <|> lineString '\'')) <|> bareKey

/-- How many parts a key and how many levels a value may have, plus one. -/
def nestingLimit : Nat := 80

def key : Reader (List String × String) := do
  let parts ← separated (do blanks; let k ← simpleKey; blanks; return k) (char '.')
  if nestingLimit ≤ parts.length then failure
  match parts.getLast? with
  | some last => return (parts.dropLast, last)
  | none => failure

def space : Reader Unit := do
  blanks
  discard (many (do discard (attempt comment); newline; blanks))

def array (value : Reader Item) : Reader Item := do
  char '['
  let items ← attempt (separated (do space; let x ← value; space; return x) (char ','))
  if items.isSome then discard (attempt (char ','))
  space
  char ']'
  return .array (items.getD [])

def keyval (value : Reader Item) : Reader (List String × String × Item) := do
  let (path, k) ← key
  char '='
  blanks
  let x ← value
  return (path, k, x)

def inlineTable (value : Reader Item) : Reader Item := do
  char '\x7b'
  let keyvals ← attempt (separated (do let kv ← keyval value; blanks; return kv) (char ','))
  blanks
  char '\x7d'
  match inlineEntries (keyvals.getD []) with
  | some es => return .inline .explicit es
  | none => failure

/-- A value with at most so many levels of arrays and tables inside each other. -/
def valueWithin : Nat → Reader Item
  | 0 => scalar
  | levels + 1 => scalar <|> array (valueWithin levels) <|> inlineTable (valueWithin levels)

def value : Reader Item := valueWithin (nestingLimit - 1)

def lineEnd : Reader Unit := do
  blanks
  discard (attempt comment)
  newline <|> do
    match ← next? with
    | none => return ()
    | some _ => failure

structure Draft where
  entries : Entries
  path : List String

namespace Draft

def empty : Draft := ⟨[], []⟩

def change (d : Draft) (path : List String) (f : Place → Option Entries) : Option Entries :=
  descend false f path ⟨.explicit, d.entries⟩

def keyLine (d : Draft) : Reader Draft := do
  let (path, k, x) ← keyval value
  lineEnd
  match d.change d.path (addValue path k x) with
  | some entries => return { d with entries }
  | none => failure

def headerLine (d : Draft) : Reader Draft := do
  let another := (← attempt (exactly "[[")).isSome
  if !another then char '['
  let (path, k) ← key
  if another then exactly "]]" else char ']'
  lineEnd
  match d.change path (if another then openAnother k else openTable k) with
  | some entries => return ⟨entries, path ++ [k]⟩
  | none => failure

def line (d : Draft) : Reader Draft := do
  blanks
  match ← next? with
  | none => failure
  | some '#' | some '\n' | some '\r' => do lineEnd; return d
  | some '[' => d.headerLine
  | some _ => d.keyLine

def lines : Nat → Draft → Reader Draft
  | 0, d => pure d
  | fuel + 1, d => do
    blanks
    match ← next? with
    | none => return d
    | some _ => lines fuel (← d.line)

end Draft

/-- The top table of a document. A byte order mark in front does not count. -/
def document? (text : List Char) : Option Entries := do
  let cs := match text with
    | '\ufeff' :: cs => cs
    | cs => cs
  let (d, rest) ← (Draft.lines (cs.length + 1) .empty).run cs
  if rest = [] then some d.entries else none

end GraphWrites.Toml
