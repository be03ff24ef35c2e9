import GraphWrites.Binary64

namespace GraphWrites

structure Decimal where
  digits : Nat
  exponent : Int
deriving DecidableEq, Repr

namespace Binary64

structure Neighbourhood where
  low : Nat
  value : Nat
  high : Nat
  denominator : Nat
  closed : Bool

def neighbourhood (x : Binary64) : Neighbourhood :=
  let step := Nat.pow 2 (x.exponentField - 1)
  let below := if x.fraction = 0 ∧ 1 < x.exponentField then step else 2 * step
  { low := 4 * x.magnitude - below
    value := 4 * x.magnitude
    high := 4 * x.magnitude + 2 * step
    denominator := 4 * unitsPerOne
    closed := x.fraction % 2 == 0 }

namespace Neighbourhood

def inUnits (n : Neighbourhood) (p : Int) : Neighbourhood :=
  if 0 ≤ p then
    { n with denominator := n.denominator * Nat.pow 10 p.toNat }
  else
    let scale := Nat.pow 10 (-p).toNat
    { n with low := n.low * scale, value := n.value * scale, high := n.high * scale }

def holds (n : Neighbourhood) (c : Nat) : Bool :=
  let x := c * n.denominator
  (n.low < x && x < n.high) || (n.closed && (x == n.low || x == n.high))

/-- The whole number in the interval that is nearest to the value, of two equally near the even one. -/
def nearest? (n : Neighbourhood) : Option Nat :=
  let below := n.value / n.denominator
  let rest := n.value % n.denominator
  match n.holds below, n.holds (below + 1) with
  | false, false => none
  | true, false => some below
  | false, true => some (below + 1)
  | true, true =>
    if 2 * rest < n.denominator || (2 * rest == n.denominator && below % 2 == 0) then some below
    else some (below + 1)

def leadingExponent (n : Neighbourhood) : Int :=
  if n.denominator ≤ n.value then
    (Nat.toDigits 10 (n.value / n.denominator)).length - 1
  else
    -(Nat.toDigits 10 ((n.denominator + n.value - 1) / n.value - 1)).length

end Neighbourhood

def dropZeros : Nat → Decimal → Decimal
  | 0, d => d
  | fuel + 1, d => if d.digits % 10 = 0 then dropZeros fuel ⟨d.digits / 10, d.exponent + 1⟩ else d

/-- Seventeen digits always suffice, so the search does not come up empty. -/
def shortest (x : Binary64) : Decimal :=
  let n := x.neighbourhood
  let first := n.leadingExponent
  let found := (List.range 17).findSome? fun (count : Nat) =>
    let p := first - count
    (n.inUnits p).nearest?.map fun digits => (⟨digits, p⟩ : Decimal)
  dropZeros 17 (found.getD ⟨0, 0⟩)

end Binary64

end GraphWrites
