namespace FeatureFile.Number

def digit? (c : Char) : Option Nat :=
  if c.isDigit then some (c.toNat - '0'.toNat) else none

def digits? : Nat → List Char → Option Nat
  | value, [] => some value
  | value, c :: rest =>
    match digit? c with
    | some d => digits? (value * 10 + d) rest
    | none => none

def natural? (text : List Char) : Option Nat :=
  if text.isEmpty then none else digits? 0 text

def splitSign : List Char → Bool × List Char
  | '-' :: rest => (true, rest)
  | '+' :: rest => (false, rest)
  | text => (false, text)

def signed (negative : Bool) (n : Nat) : Int :=
  if negative then -n else n

def integer? (text : List Char) : Option Int :=
  (natural? (splitSign text).2).map (signed (splitSign text).1)

def greatest64 : Int := 0x7FFFFFFFFFFFFFFF

def fits64 (n : Int) : Bool :=
  -greatest64 - 1 ≤ n && n ≤ greatest64

def int64? (text : List Char) : Option Int :=
  (integer? text).filter fits64

end FeatureFile.Number
