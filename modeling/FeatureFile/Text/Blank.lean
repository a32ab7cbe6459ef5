import FeatureFile.Text.Ranges

/-!
Two kinds of empty space. Padding is a space or a tab and separates the words of a line; a blank is
any code point with the White_Space property.
-/

namespace FeatureFile.Text

def blankRanges : List (Nat × Nat) :=
  [(0x9, 0xD), (0x20, 0x20), (0x85, 0x85), (0xA0, 0xA0), (0x1680, 0x1680), (0x2000, 0x200A),
   (0x2028, 0x2029), (0x202F, 0x202F), (0x205F, 0x205F), (0x3000, 0x3000)]

def isBlank (c : Char) : Bool :=
  covers blankRanges c.toNat

def isPad (c : Char) : Bool :=
  c = ' ' || c = '\t'

def dropEnd {α : Type} (p : α → Bool) : List α → List α
  | [] => []
  | a :: rest =>
    match dropEnd p rest with
    | [] => if p a then [] else [a]
    | kept => a :: kept

def trim (p : Char → Bool) (text : List Char) : List Char :=
  dropEnd p (text.dropWhile p)

end FeatureFile.Text
