import GraphWrites.Binary64.Rounding
import GraphWrites.Binary64.Shortest

namespace GraphWrites.Json

structure Numeral where
  negative : Bool
  whole : List Char
  fraction : List Char
  exponent : Option (Bool × List Char)
deriving DecidableEq, Repr

namespace Numeral

def chars (n : Numeral) : List Char :=
  (if n.negative then ['-'] else []) ++ n.whole ++
    (if n.fraction = [] then [] else '.' :: n.fraction) ++
    match n.exponent with
    | none => []
    | some (negative, digits) => 'e' :: (if negative then '-' else '+') :: digits

def ofInt (i : Int) : Numeral := ⟨i < 0, Nat.toDigits 10 i.natAbs, [], none⟩

def positionalLimit : Int := 16

def positionalFloor : Int := -5

def ofDecimal (negative : Bool) (d : Decimal) : Numeral :=
  let digits := Nat.toDigits 10 d.digits
  let leading := d.exponent + digits.length - 1
  if leading < positionalFloor ∨ positionalLimit ≤ leading then
    ⟨negative, digits.take 1, digits.drop 1, some (leading < 0, Nat.toDigits 10 leading.natAbs)⟩
  else if leading < 0 then
    ⟨negative, ['0'], List.replicate (-leading - 1).toNat '0' ++ digits, none⟩
  else if 0 ≤ d.exponent then
    ⟨negative, digits ++ List.replicate d.exponent.toNat '0', ['0'], none⟩
  else
    let whole := (leading + 1).toNat
    ⟨negative, digits.take whole, digits.drop whole, none⟩

def ofBinary64 (x : Binary64) : Numeral :=
  if x.isZero then ⟨x.isNegative, ['0'], ['0'], none⟩ else ofDecimal x.isNegative x.shortest

inductive Reading where
  | int (i : Int)
  | float (x : Binary64)
deriving DecidableEq, Repr

def wordLimit : Nat := Nat.pow 2 64

def fill (n : Nat) : List Char → Nat × List Char
  | [] => (n, [])
  | c :: cs =>
    let next := 10 * n + (c.toNat - '0'.toNat)
    if next < wordLimit then fill next cs else (n, c :: cs)

def exponentLimit : Nat := Nat.pow 2 31

def largestPower : Nat := 308

def scaleDown : Nat → Binary64 → Nat → Binary64
  | 0, x, _ => x
  | fuel + 1, x, k =>
    if k ≤ largestPower then x.div (.ofNat (Nat.pow 10 k))
    else if x.isZero then x
    else scaleDown fuel (x.div (.ofNat (Nat.pow 10 largestPower))) (k - largestPower)

/-- `significand * 10 ^ exponent`, rounded after each step. `none` beyond the largest number. -/
def scale? (significand : Nat) (exponent : Int) : Option Binary64 :=
  let x := Binary64.ofNat significand
  if exponent < 0 then
    some (scaleDown 4 x exponent.natAbs)
  else if exponent ≤ largestPower then
    let y := x.mul (.ofNat (Nat.pow 10 exponent.toNat))
    if y.isInfinite then none else some y
  else if significand = 0 then some x
  else none

/-- The number of a literal with a fraction, an exponent or too many digits. Its significand is the
digits that fit a 64-bit word, and each whole digit beyond them counts as a power of ten. -/
def float? (n : Numeral) : Option Binary64 :=
  let (filled, leftWhole) := fill 0 n.whole
  let (significand, leftFraction) := fill filled n.fraction
  let shift : Int := leftWhole.length - (n.fraction.length - leftFraction.length : Nat)
  let size := match n.exponent with
    | none => scale? significand shift
    | some (negative, digits) =>
      let e := Nat.ofDigitChars 10 digits 0
      if e < exponentLimit then
        scale? significand (if negative then shift - e else shift + e)
      else if significand = 0 ∨ negative then some (.ofNat 0)
      else none
  size.map fun x => if n.negative then x.neg else x

/-- Whole numbers that fit a signed or an unsigned 64-bit word stay whole, except for `-0`. -/
def read? (n : Numeral) : Option Reading :=
  let i := Nat.ofDigitChars 10 n.whole 0
  if n.fraction = [] ∧ n.exponent = none ∧ (if n.negative then 0 < i ∧ i ≤ Nat.pow 2 63 else i < wordLimit) then
    some (.int (if n.negative then -i else i))
  else
    n.float?.map .float

end Numeral

end GraphWrites.Json
