import GraphWrites.Json.Token

namespace GraphWrites.Json

/-- A document by its literals. Which number one stands for, and whether a string has characters, is left to the reader of
a field, because fields nobody reads are not held to it. -/
inductive Tree where
  | null
  | bool (b : Bool)
  | number (n : Numeral)
  | text (content : Content)
  | array (items : List Tree)
  | object (fields : List (Content × Tree))
deriving Repr, Inhabited

namespace Tree

mutual

def read : Nat → List Token → Option (Tree × List Token)
  | 0, _ => none
  | _ + 1, .null :: ts => some (.null, ts)
  | _ + 1, .bool b :: ts => some (.bool b, ts)
  | _ + 1, .number n :: ts => some (.number n, ts)
  | _ + 1, .text content :: ts => some (.text content, ts)
  | _ + 1, .openArray :: .closeArray :: ts => some (.array [], ts)
  | fuel + 1, .openArray :: ts => do
    let (x, ts) ← read fuel ts
    let (xs, ts) ← readItems fuel ts
    return (.array (x :: xs), ts)
  | _ + 1, .openObject :: .closeObject :: ts => some (.object [], ts)
  | fuel + 1, .openObject :: .text k :: .colon :: ts => do
    let (x, ts) ← read fuel ts
    let (fs, ts) ← readFields fuel ts
    return (.object ((k, x) :: fs), ts)
  | _ + 1, _ => none

def readItems : Nat → List Token → Option (List Tree × List Token)
  | 0, _ => none
  | _ + 1, .closeArray :: ts => some ([], ts)
  | fuel + 1, .comma :: ts => do
    let (x, ts) ← read fuel ts
    let (xs, ts) ← readItems fuel ts
    return (x :: xs, ts)
  | _ + 1, _ => none

def readFields : Nat → List Token → Option (List (Content × Tree) × List Token)
  | 0, _ => none
  | _ + 1, .closeObject :: ts => some ([], ts)
  | fuel + 1, .comma :: .text k :: .colon :: ts => do
    let (x, ts) ← read fuel ts
    let (fs, ts) ← readFields fuel ts
    return ((k, x) :: fs, ts)
  | _ + 1, _ => none

end

def ofTokens? (ts : List Token) : Option Tree :=
  match read ts.length ts with
  | some (t, []) => some t
  | _ => none

def ofText? (s : String) : Option Tree := do ofTokens? (← tokens s.toList)

/-- The fields whose names mean something, in the order of the text. `none` if some name has no
characters. -/
def known {κ : Type} (key? : List Char → Option κ) : List (Content × Tree) → Option (List (κ × Tree))
  | [] => some []
  | (none, _) :: _ => none
  | (some k, t) :: fs =>
    match key? k with
    | some key => (known key? fs).map ((key, t) :: ·)
    | none => known key? fs

mutual

/-- Whether a subtree can be kept for later: numbers in range, strings with characters, and no more
than the given number of containers inside each other. -/
def keepable (depth : Nat) : Tree → Bool
  | .null | .bool _ => true
  | .number n => n.read?.isSome
  | .text content => content.isSome
  | .array items => 0 < depth && keepableItems (depth - 1) items
  | .object fields => 0 < depth && keepableFields (depth - 1) fields

def keepableItems (depth : Nat) : List Tree → Bool
  | [] => true
  | t :: ts => t.keepable depth && keepableItems depth ts

def keepableFields (depth : Nat) : List (Content × Tree) → Bool
  | [] => true
  | (k, t) :: fs => k.isSome && t.keepable depth && keepableFields depth fs

end

end Tree

end GraphWrites.Json
