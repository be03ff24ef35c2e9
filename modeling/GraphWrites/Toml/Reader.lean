namespace GraphWrites.Toml

abbrev Reader := StateT (List Char) Option

namespace Reader

def next? : Reader (Option Char) := do return (← get).head?

def satisfy (p : Char → Bool) : Reader Char := do
  match ← get with
  | c :: cs => if p c then set cs; return c else failure
  | [] => failure

def char (c : Char) : Reader Unit := discard (satisfy (· == c))

def exactly (s : String) : Reader Unit := do
  let cs ← get
  if s.toList.isPrefixOf cs then set (cs.drop s.length) else failure

def takeWhile (p : Char → Bool) : Reader (List Char) := do
  let cs ← get
  set (cs.dropWhile p)
  return cs.takeWhile p

def attempt {α : Type} (r : Reader α) : Reader (Option α) := some <$> r <|> pure none

def manyWithin {α : Type} (r : Reader α) : Nat → Reader (List α)
  | 0 => pure []
  | fuel + 1 => do
    match ← attempt r with
    | none => return []
    | some a => return a :: (← manyWithin r fuel)

def many {α : Type} (r : Reader α) : Reader (List α) := do manyWithin r (← get).length

def separated {α : Type} (r : Reader α) (separator : Reader Unit) : Reader (List α) := do
  let first ← r
  return first :: (← many (separator *> r))

end Reader

end GraphWrites.Toml
