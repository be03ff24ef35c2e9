namespace GraphWrites

/-- A binary64 number, given by its bits. Every not-a-number keeps its payload. -/
structure Binary64 where
  bits : UInt64
deriving DecidableEq, Repr, Inhabited

namespace Binary64

def word (x : Binary64) : Nat := x.bits.toNat

def signPlace : Nat := Nat.pow 2 63

def fractionCount : Nat := Nat.pow 2 52

def isNegative (x : Binary64) : Bool := signPlace ≤ x.word

def exponentField (x : Binary64) : Nat := x.word / fractionCount % 2048

def fraction (x : Binary64) : Nat := x.word % fractionCount

def isFinite (x : Binary64) : Bool := x.exponentField != 2047

def isNaN (x : Binary64) : Bool := x.exponentField == 2047 && x.fraction != 0

def isInfinite (x : Binary64) : Bool := x.exponentField == 2047 && x.fraction == 0

def unitsPerOne : Nat := Nat.pow 2 1074

def magnitude (x : Binary64) : Nat :=
  if x.exponentField = 0 then x.fraction else (fractionCount + x.fraction) * Nat.pow 2 (x.exponentField - 1)

def isZero (x : Binary64) : Bool := x.exponentField == 0 && x.fraction == 0

/-- Equality of the numbers, not of the bits: no NaN equals anything, and the two zeros are equal. -/
def sameNumber (x y : Binary64) : Bool :=
  !x.isNaN && !y.isNaN && (x == y || (x.isZero && y.isZero))

def ofSignLow (negative : Bool) (low : Nat) : Binary64 :=
  ⟨(low + if negative then signPlace else 0).toUInt64⟩

def infinityLow : Nat := 2047 * fractionCount

end Binary64

end GraphWrites
