/-!
Sets of code points, given as ascending lists of closed ranges. The sets of properties and general
categories are those of version 17.0 of the Unicode character database.
-/

namespace FeatureFile.Text

def covers : List (Nat × Nat) → Nat → Bool
  | [], _ => false
  | (low, high) :: rest, n => if n < low then false else n ≤ high || covers rest n

end FeatureFile.Text
