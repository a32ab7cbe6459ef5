/-!
Cutting a text into lines. A line ends at a carriage return with a line feed, at either of the two
alone, or at the end of the text.
-/

namespace FeatureFile.Text

def isBreak (c : Char) : Bool :=
  c = '\r' || c = '\n'

structure SourceLine where
  content : List Char
  ending : List Char
  deriving DecidableEq, Repr

def SourceLine.text (line : SourceLine) : List Char :=
  line.content ++ line.ending

def prependChar (c : Char) : List SourceLine → List SourceLine
  | [] => [⟨[c], []⟩]
  | line :: rest => ⟨c :: line.content, line.ending⟩ :: rest

def lines : List Char → List SourceLine
  | [] => []
  | '\r' :: '\n' :: rest => ⟨[], ['\r', '\n']⟩ :: lines rest
  | c :: rest => if isBreak c then ⟨[], [c]⟩ :: lines rest else prependChar c (lines rest)

end FeatureFile.Text
