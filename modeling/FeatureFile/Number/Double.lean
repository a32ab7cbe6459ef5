import FeatureFile.Number.Integer

/-!
Binary floating-point numbers of 64 bits, and how decimal text is read as one: the exact value is
rounded to the nearest of them, and a tie goes to the even mantissa.
-/

namespace FeatureFile.Number

/-- A finite number is `mantissa * 2 ^ exponent`, with a mantissa below `2 ^ 53` and an exponent from
`-1074` on; a mantissa below `2 ^ 52` has the least exponent. -/
inductive Double where
  | nan
  | infinite (negative : Bool)
  | finite (negative : Bool) (mantissa : Nat) (exponent : Int)
  deriving DecidableEq, Repr

def roundHalfEven (num den : Nat) : Nat :=
  let q := num / den
  let r := num % den
  if 2 * r < den then q
  else if den < 2 * r then q + 1
  else q + q % 2

def unscale (base num den : Nat) (exponent : Int) : Nat × Nat :=
  if exponent < 0 then (num * base.pow exponent.natAbs, den) else (num, den * base.pow exponent.natAbs)

namespace Double

def leastExponent : Int := -1074

def greatestExponent : Int := 971

def leastFull : Nat := 0x10000000000000

def signBit : Nat := 0x8000000000000000

def infinityBits : Nat := 0x7FF0000000000000

def exponentOf (num den : Nat) : Int :=
  let guess : Int := (num.log2 : Int) - (den.log2 : Int) - 52
  let (n, d) := unscale 2 num den guess
  max leastExponent (if n / d < leastFull then guess - 1 else guess)

def normalize (negative : Bool) (mantissa : Nat) (exponent : Int) : Double :=
  let (m, e) :=
    if mantissa = 2 * leastFull then (leastFull, exponent + 1) else (mantissa, exponent)
  if greatestExponent < e then infinite negative else finite negative m e

def ofRatio (negative : Bool) (num den : Nat) : Double :=
  if num = 0 then finite negative 0 leastExponent
  else
    let e := exponentOf num den
    let (n, d) := unscale 2 num den e
    normalize negative (roundHalfEven n d) e

def ofDecimal (negative : Bool) (digits : Nat) (scale : Int) : Double :=
  let size : Int := (Nat.toDigits 10 digits).length
  if digits = 0 then finite negative 0 leastExponent
  else if 310 < size + scale then infinite negative
  else if size + scale < -330 then finite negative 0 leastExponent
  else
    let (num, den) := unscale 10 digits 1 (-scale)
    ofRatio negative num den

def bits : Double → Nat
  | nan => infinityBits + leastFull / 2
  | infinite negative => (if negative then signBit else 0) + infinityBits
  | finite negative m e =>
    (if negative then signBit else 0) +
      if m < leastFull then m
      else (e - leastExponent + 1).toNat * leastFull + (m - leastFull)

structure Decimal where
  whole : List Char
  fraction : List Char
  exponent : Int

def splitDigits (text : List Char) : List Char × List Char :=
  (text.takeWhile Char.isDigit, text.dropWhile Char.isDigit)

def splitFraction : List Char → List Char × List Char
  | '.' :: rest => splitDigits rest
  | text => ([], text)

def exponent? : List Char → Option Int
  | [] => some 0
  | c :: rest => if c = 'e' || c = 'E' then integer? rest else none

def decimal? (text : List Char) : Option Decimal :=
  let (whole, rest) := splitDigits text
  let (fraction, rest) := splitFraction rest
  if whole.isEmpty && fraction.isEmpty then none
  else (exponent? rest).map fun e => ⟨whole, fraction, e⟩

def ofDigits (negative : Bool) (d : Decimal) : Double :=
  ofDecimal negative ((digits? 0 (d.whole ++ d.fraction)).getD 0) (d.exponent - d.fraction.length)

def lower (text : List Char) : List Char :=
  text.map Char.toLower

/-- Reads an optional sign and digits with optional point and exponent, or a name of infinity or of
what is not a number, in any letter case. -/
def read? (text : List Char) : Option Double :=
  let (negative, body) := splitSign text
  if lower body = "nan".toList then some nan
  else if lower body ∈ ["inf".toList, "infinity".toList] then some (infinite negative)
  else (decimal? body).map (ofDigits negative)

end Double

end FeatureFile.Number
