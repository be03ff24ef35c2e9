import GraphWrites.Text.Visible

namespace GraphWrites.Text

def codePoint (c : Char) : List Char := '\x7b' :: (Nat.toDigits 16 c.toNat ++ ['\x7d'])

def quotedChar (c : Char) : List Char :=
  match c with
  | '"' => ['\\', '"']
  | '\\' => ['\\', '\\']
  | '\n' => ['\\', 'n']
  | '\t' => ['\\', 't']
  | '\r' => ['\\', 'r']
  | '\x00' => ['\\', '0']
  | c => if isVisible c then [c] else '\\' :: 'u' :: codePoint c

def quoted (s : String) : String := "\"" ++ String.ofList (s.toList.flatMap quotedChar) ++ "\""

def quotedList (names : List String) : String := "[" ++ ", ".intercalate (names.map quoted) ++ "]"

end GraphWrites.Text
