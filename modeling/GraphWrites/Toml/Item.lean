namespace GraphWrites.Toml

inductive TableKind where
  | explicit
  /-- By a header below it. It may still get a header of its own. -/
  | implied
  /-- By a dotted key. It grows by dotted keys only. -/
  | dotted
deriving DecidableEq, Repr

inductive Item where
  | text (s : String)
  | int (i : Int)
  | bool (b : Bool)
  | float
  | moment
  | array (items : List Item)
  | inline (kind : TableKind) (entries : List (String × Item))
  | table (kind : TableKind) (entries : List (String × Item))
  /-- Tables of one name, the last of which is still growing. -/
  | tables (ts : List (List (String × Item)))
deriving Repr, Inhabited

abbrev Entries := List (String × Item)

def Entries.get? (es : Entries) (k : String) : Option Item := (es.find? fun e => e.1 == k).map Prod.snd

def Entries.set (es : Entries) (k : String) (x : Item) : Entries :=
  if es.any fun e => e.1 == k then es.map fun e => if e.1 == k then (k, x) else e else es ++ [(k, x)]

structure Place where
  kind : TableKind
  entries : Entries

/-- Walks down a path of tables and changes the table at its end. Tables that are missing on the way
are made, by a header or, if `dotted`, by a dotted key. Of several tables of one name the last is
meant. A dotted key does not lead through a table that has a header. -/
def descend (dotted : Bool) (change : Place → Option Entries) : List String → Place → Option Entries
  | [], place => change place
  | k :: ks, place =>
    match place.entries.get? k with
    | none => do
      let kind := if dotted then TableKind.dotted else .implied
      let es ← descend dotted change ks ⟨kind, []⟩
      return place.entries.set k (.table kind es)
    | some (.table kind es) =>
      if dotted && kind == .explicit then none
      else do
        let es ← descend dotted change ks ⟨kind, es⟩
        return place.entries.set k (.table kind es)
    | some (.tables ts) => do
      let last ← ts.getLast?
      let es ← descend dotted change ks ⟨.explicit, last⟩
      return place.entries.set k (.tables (ts.dropLast ++ [es]))
    | some _ => none

/-- Adds a key that is not there yet. A dotted key adds to a table made by dotted keys, any other key
to a table that was not. -/
def addKey (dotted : Bool) (k : String) (x : Item) (place : Place) : Option Entries :=
  if dotted != (place.kind == .dotted) then none
  else if (place.entries.get? k).isSome then none
  else some (place.entries.set k x)

def addValue (path : List String) (k : String) (x : Item) (place : Place) : Option Entries :=
  descend true (addKey (path != []) k x) path place

def openTable (k : String) (place : Place) : Option Entries :=
  match place.entries.get? k with
  | none => some (place.entries.set k (.table .explicit []))
  | some (.table .implied es) => some (place.entries.set k (.table .explicit es))
  | some _ => none

def openAnother (k : String) (place : Place) : Option Entries :=
  match place.entries.get? k with
  | none => some (place.entries.set k (.tables [[]]))
  | some (.tables ts) => some (place.entries.set k (.tables (ts ++ [[]])))
  | some _ => none

def descendInline (change : Place → Option Entries) : List String → Place → Option Entries
  | [], place => change place
  | k :: ks, place =>
    match place.entries.get? k with
    | none => do
      let es ← descendInline change ks ⟨.dotted, []⟩
      return place.entries.set k (.inline .dotted es)
    | some (.inline .dotted es) => do
      let es ← descendInline change ks ⟨.dotted, es⟩
      return place.entries.set k (.inline .dotted es)
    | some _ => none

def inlineEntries (keyvals : List (List String × String × Item)) : Option Entries :=
  keyvals.foldlM (fun es (path, k, x) => descendInline (addKey (path != []) k x) path ⟨.explicit, es⟩) []

end GraphWrites.Toml
