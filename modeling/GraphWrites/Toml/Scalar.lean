import GraphWrites.Toml.Item
import GraphWrites.Toml.Reader

namespace GraphWrites.Toml

open Reader

def isBlank (c : Char) : Bool := c == ' ' || c == '\t'

def blanks : Reader Unit := discard (takeWhile isBlank)

def newline : Reader Unit := exactly "\n" <|> exactly "\r\n"

def isPrintable (c : Char) : Bool := c == '\t' || (0x20 ≤ c.toNat && c.toNat != 0x7f)

def comment : Reader Unit := do
  char '#'
  discard (takeWhile isPrintable)

def hexValue? (c : Char) : Option Nat :=
  if c.isDigit then some (c.toNat - '0'.toNat)
  else if 'a' ≤ c ∧ c ≤ 'f' then some (c.toNat - 'a'.toNat + 10)
  else if 'A' ≤ c ∧ c ≤ 'F' then some (c.toNat - 'A'.toNat + 10)
  else none

def codePoint (count : Nat) : Reader Char := do
  let cs ← get
  let digits ← (cs.take count).mapM fun c => (hexValue? c : Reader Nat)
  let n := digits.foldl (fun n d => 16 * n + d) 0
  if digits.length = count ∧ n.isValidChar then
    set (cs.drop count)
    return Char.ofNat n
  else failure

def escaped : Reader Char := do
  char '\\'
  match ← satisfy fun _ => true with
  | 'b' => return '\x08'
  | 't' => return '\t'
  | 'n' => return '\n'
  | 'f' => return '\x0c'
  | 'r' => return '\r'
  | '"' => return '"'
  | '\\' => return '\\'
  | 'u' => codePoint 4
  | 'U' => codePoint 8
  | _ => failure

def plainIn (quote : Char) : Reader Char :=
  satisfy fun c => isPrintable c && c != quote && (quote == '\'' || c != '\\')

def lineString (quote : Char) : Reader (List Char) := do
  char quote
  let cs ← many (if quote == '"' then plainIn quote <|> escaped else plainIn quote)
  char quote
  return cs

def innerQuotes (quote : Char) : Reader (List Char) := do
  let run ← takeWhile (· == quote)
  if run.length = 1 ∨ run.length = 2 then return run else failure

def continuation : Reader (List Char) := do
  char '\\'
  blanks
  newline
  discard (many (discard (satisfy isBlank) <|> newline))
  return []

def textPiece (quote : Char) : Reader (List Char) :=
  let plain := (List.singleton <$> plainIn quote) <|> (do newline; return ['\n'])
  if quote == '"' then plain <|> continuation <|> (List.singleton <$> escaped) else plain

/-- A string between three quotes. A line break behind the first three does not count, and of up to
five quotes at the end all but three belong to the string. -/
def textString (quote : Char) : Reader (List Char) := do
  let three := String.ofList [quote, quote, quote]
  exactly three
  discard (attempt newline)
  let pieces ← many (textPiece quote <|> innerQuotes quote)
  let run := (← get).takeWhile (· == quote)
  let inner := min (run.length - 3) 2
  exactly (String.ofList (List.replicate inner quote))
  exactly three
  return pieces.flatten ++ List.replicate inner quote

def string : Reader String :=
  String.ofList <$> (textString '"' <|> lineString '"' <|> textString '\'' <|> lineString '\'')

def digits (isDigit : Char → Bool) : Reader (List Char) := do
  let first ← satisfy isDigit
  return first :: (← many (satisfy isDigit <|> (char '_' *> satisfy isDigit)))

def sign : Reader Bool := (char '-' *> pure true) <|> (char '+' *> pure false) <|> pure false

def wholeNumber : Reader (Bool × List Char) := do
  let negative ← sign
  if (← next?) == some '0' then
    char '0'
    return (negative, ['0'])
  else return (negative, ← digits Char.isDigit)

def integerLimit : Int := 0x8000000000000000

def integer : Reader Item := do
  let (negative, ds) ← wholeNumber
  let n : Int := Nat.ofDigitChars 10 ds 0
  let n := if negative then -n else n
  if -integerLimit ≤ n ∧ n < integerLimit then return .int n else failure

def basedInteger (mark : String) (base : Nat) : Reader Item := do
  exactly mark
  let ds ← digits fun c => (hexValue? c).any (· < base)
  let n := ds.foldl (fun n c => base * n + (hexValue? c).getD 0) 0
  if n < integerLimit then return .int n else failure

def overflows (digits : Nat) (exponent : Int) : Bool :=
  let size := (Nat.toDigits 10 digits).length + exponent
  let limit := Nat.pow 2 1024 - Nat.pow 2 970
  if digits = 0 ∨ size < 300 then false
  else if 400 < size then true
  else if 0 ≤ exponent then limit ≤ digits * Nat.pow 10 exponent.toNat
  else limit * Nat.pow 10 (-exponent).toNat ≤ digits

def fraction : Reader (List Char) := char '.' *> digits Char.isDigit

def exponent : Reader Int := do
  discard (satisfy fun c => c == 'e' || c == 'E')
  let negative ← sign
  let n : Int := Nat.ofDigitChars 10 (← digits Char.isDigit) 0
  return if negative then -n else n

/-- A number with a fraction or an exponent. It must not round to positive infinity. -/
def float : Reader Item := do
  let (negative, whole) ← wholeNumber
  let decimals ← attempt fraction
  let power ← attempt exponent
  if decimals.isNone ∧ power.isNone then failure
  let decimals := decimals.getD []
  let significand := Nat.ofDigitChars 10 (whole ++ decimals) 0
  if !negative && overflows significand (power.getD 0 - decimals.length) then failure
  return .float

def specialFloat : Reader Item := do
  discard sign
  exactly "inf" <|> exactly "nan"
  return .float

def fixedDigits (count low high : Nat) : Reader Nat := do
  let cs := (← get).take count
  let n := Nat.ofDigitChars 10 cs 0
  if cs.length = count ∧ cs.all Char.isDigit ∧ low ≤ n ∧ n ≤ high then
    set ((← get).drop count)
    return n
  else failure

def daysIn (year month : Nat) : Nat :=
  if month = 2 then
    if year % 4 = 0 ∧ (year % 100 ≠ 0 ∨ year % 400 = 0) then 29 else 28
  else if month = 4 ∨ month = 6 ∨ month = 9 ∨ month = 11 then 30
  else 31

def date : Reader Unit := do
  let year ← fixedDigits 4 0 9999
  char '-'
  let month ← fixedDigits 2 1 12
  char '-'
  discard (fixedDigits 2 1 (daysIn year month))

def time : Reader Unit := do
  discard (fixedDigits 2 0 23)
  char ':'
  discard (fixedDigits 2 0 59)
  char ':'
  discard (fixedDigits 2 0 60)
  discard (attempt (do
    char '.'
    discard (satisfy Char.isDigit)
    discard (takeWhile Char.isDigit)))

def offset : Reader Unit :=
  discard (satisfy fun c => c == 'Z' || c == 'z') <|> do
    discard (satisfy fun c => c == '+' || c == '-')
    discard (fixedDigits 2 0 23)
    char ':'
    discard (fixedDigits 2 0 59)

def moment : Reader Item := do
  (do
    date
    discard (attempt (do
      discard (satisfy fun c => c == 'T' || c == 't' || c == ' ')
      time
      discard (attempt offset)))) <|> time
  return .moment

def scalar : Reader Item :=
  (.text <$> string) <|> (exactly "true" *> pure (.bool true)) <|> (exactly "false" *> pure (.bool false)) <|>
    specialFloat <|> moment <|> float <|> basedInteger "0x" 16 <|> basedInteger "0o" 8 <|> basedInteger "0b" 2 <|>
    integer

end GraphWrites.Toml
