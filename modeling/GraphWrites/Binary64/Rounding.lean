import GraphWrites.Binary64

namespace GraphWrites.Binary64

/-- Bits of `numerator / denominator` units. The significand keeps 53 bits where the quotient has
them, so the bits dropped below it number `drop`, and `drop * fractionCount` plus the significand spells
exponent field and fraction at once. -/
def roundLow (numerator denominator : Nat) : Nat :=
  let drop := Nat.log2 (numerator / denominator) + 1 - 53
  let step := denominator * Nat.pow 2 drop
  let significand := numerator / step
  let remainder := numerator % step
  let up := 2 * remainder > step || (2 * remainder == step && significand % 2 == 1)
  min (drop * fractionCount + significand + if up then 1 else 0) infinityLow

def ofNat (n : Nat) : Binary64 := ofSignLow false (roundLow (n * unitsPerOne) 1)

def mul (x y : Binary64) : Binary64 :=
  ofSignLow (x.isNegative != y.isNegative) (roundLow (x.magnitude * y.magnitude) unitsPerOne)

def div (x y : Binary64) : Binary64 :=
  ofSignLow (x.isNegative != y.isNegative) (roundLow (x.magnitude * unitsPerOne) y.magnitude)

def neg (x : Binary64) : Binary64 := ⟨x.bits ^^^ 0x8000000000000000⟩

end GraphWrites.Binary64
