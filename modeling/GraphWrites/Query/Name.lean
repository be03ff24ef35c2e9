namespace GraphWrites.Name

def isStart (c : Char) : Bool := c.isAlpha || c == '_'

def isPart (c : Char) : Bool := c.isAlphanum || c == '_'

def isPlain : List Char → Bool
  | [] => false
  | c :: cs => isStart c && cs.all isPart

def doubled (cs : List Char) : List Char := cs.flatMap fun c => if c == '`' then ['`', '`'] else [c]

def chars (cs : List Char) : List Char := if isPlain cs then cs else '`' :: (doubled cs ++ ['`'])

/-- A name that is not plain stands between backticks. -/
def quoted (s : String) : String := String.ofList (chars s.toList)

def labels (ls : List String) : String := String.join (ls.map fun l => ":" ++ quoted l)

def sanitized (s : String) : String := String.ofList (s.toList.map fun c => if isPart c then c else '_')

def numbered (base : String) (n : Nat) : String := base ++ "_" ++ n.repr

def firstFree (base : String) (taken : List String) : Nat → Nat → String
  | 0, n => numbered base n
  | fuel + 1, n =>
    if taken.contains (numbered base n) then firstFree base taken fuel (n + 1) else numbered base n

/-- The base itself or, if it is taken, the base with the smallest free number. As many numbers as
there are taken names cannot all be taken, because one taken name is the base. -/
def fresh (base : String) (taken : List String) : String :=
  if taken.contains base then firstFree base taken taken.length 1 else base

def rowsParameter (type : String) : String := "rows" ++ sanitized type

end GraphWrites.Name
