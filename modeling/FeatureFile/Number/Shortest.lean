import FeatureFile.Number.Double

/-!
Writing a floating-point number with the fewest digits that read back as it, and of those with the
digits nearest to its value. The digits are written out without an exponent.
-/

namespace FeatureFile.Number

/-- The reals that round to a number, as a ratio to a common unit: `value` and the ends of the
interval are numerators over `unit`. The ends belong to it if the mantissa is even. -/
structure Interval where
  low : Nat
  value : Nat
  high : Nat
  unit : Nat
  closed : Bool
  deriving DecidableEq, Repr

namespace Interval

/-- Below a power of two the numbers lie twice as close as above it. -/
def of (mantissa : Nat) (exponent : Int) : Interval :=
  let near := mantissa = Double.leastFull && Double.leastExponent < exponent
  let (v, u) := unscale 2 (4 * mantissa) 4 (-exponent)
  let quantum := v / (4 * mantissa)
  ⟨v - (if near then quantum else 2 * quantum), v, v + 2 * quantum, u, mantissa % 2 = 0⟩

def contains (i : Interval) (num den : Nat) : Bool :=
  if i.closed then i.low * den ≤ num * i.unit && num * i.unit ≤ i.high * den
  else i.low * den < num * i.unit && num * i.unit < i.high * den

/-- The one of the two multiples of `num / den` around the value that lies in the interval, the
nearer one if both do; the greater one of two as near. -/
def pick (i : Interval) (num den : Nat) : Option Nat :=
  let below := i.value * den / (i.unit * num)
  let above := below + 1
  let down := i.contains (below * num) den && below != 0
  let up := i.contains (above * num) den
  let far := 2 * i.value * den < (below + above) * i.unit * num
  if down && (!up || far) then some below
  else if up then some above
  else none

def search (i : Interval) : Nat → Int → Option (Nat × Int)
  | 0, _ => none
  | n + 1, power =>
    match i.pick (unscale 10 1 1 (-power)).1 (unscale 10 1 1 (-power)).2 with
    | some digits => some (digits, power)
    | none => search i n (power - 1)

def topPower (i : Interval) : Int :=
  if i.unit ≤ i.value then (Nat.toDigits 10 (i.value / i.unit)).length
  else 1 - ((Nat.toDigits 10 (i.unit / i.value)).length : Int)

end Interval

namespace Double

def shortest (mantissa : Nat) (exponent : Int) : Nat × Int :=
  let i := Interval.of mantissa exponent
  (i.search 20 i.topPower).getD (0, 0)

def positional (digits : Nat) (power : Int) : List Char :=
  let shown := Nat.toDigits 10 digits
  if 0 ≤ power then shown ++ List.replicate power.natAbs '0'
  else
    let padded := List.replicate (power.natAbs + 1 - shown.length) '0' ++ shown
    let whole := padded.length - power.natAbs
    padded.take whole ++ '.' :: padded.drop whole

def sign (negative : Bool) : List Char :=
  if negative then ['-'] else []

def render : Double → List Char
  | nan => "NaN".toList
  | infinite negative => sign negative ++ "inf".toList
  | finite negative m e =>
    sign negative ++
      if m = 0 then ['0'] else positional (shortest m e).1 (shortest m e).2

end Double

end FeatureFile.Number
