import GraphWrites.Json
import GraphWrites.Json.Token

namespace GraphWrites.Json

mutual

def printed : Json → List Token
  | .null => [.null]
  | .bool b => [.bool b]
  | .int i => [.number (.ofInt i)]
  | .float x => if x.isFinite then [.number (.ofBinary64 x)] else [.null]
  | .text s => [.text (some s.toList)]
  | .array [] => [.openArray, .closeArray]
  | .array (x :: xs) => .openArray :: (printed x ++ printedItems xs ++ [.closeArray])
  | .object [] => [.openObject, .closeObject]
  | .object ((k, x) :: fs) =>
    .openObject :: .text (some k.toList) :: .colon :: (printed x ++ printedFields fs ++ [.closeObject])

def printedItems : List Json → List Token
  | [] => []
  | x :: xs => .comma :: (printed x ++ printedItems xs)

def printedFields : List (String × Json) → List Token
  | [] => []
  | (k, x) :: fs => .comma :: .text (some k.toList) :: .colon :: (printed x ++ printedFields fs)

end

def chars (j : Json) : List Char := j.printed.flatMap Token.chars

def compact (j : Json) : String := String.ofList j.chars

end GraphWrites.Json
