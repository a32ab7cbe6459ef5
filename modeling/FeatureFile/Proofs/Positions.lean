import FeatureFile.Proofs.Alike.Parse
import FeatureFile.Proofs.Text.Position
import FeatureFile.Proofs.Token.Stream

/-!
Whatever a parse places at an offset has the position of that offset in the text, as far as the
limits of positions let it be counted. The scan advances positions token by token; that it counts
right rests on line breaks being tokens of their own.
-/

namespace FeatureFile

open Text (breakEnds positionAt)

namespace Lexeme

def breakEnds (l : Lexeme) : List Bool :=
  if l.kind = .eol then List.replicate (l.text.length - 1) false ++ [true]
  else List.replicate l.text.length false

lemma length_breakEnds {l : Lexeme} (some : l.text ≠ []) : l.breakEnds.length = l.text.length := by
  have := List.length_pos_iff.mpr some
  rw [breakEnds]
  split
  · simp
    omega
  · simp

end Lexeme

namespace Token

end Token

def Mark.IsTrue (text : List Char) (m : Mark) : Prop :=
  m.position = positionAt text m.offset

def Mark.IsCounted (text : List Char) (m : Mark) : Prop :=
  m.position = (positionAt text m.offset).capped

namespace Stream

variable {text : List Char}

end Stream

namespace Parsed

variable {options : Options} {text : List Char}

end Parsed

/-- A text with no more characters and fewer line breaks than the limits of positions allow. -/
structure Text.IsCountable (text : List Char) : Prop where
  short : text.length ≤ Position.limit
  few : Text.breakCount text < Position.limit

lemma Mark.IsCounted.isTrue {text : List Char} {m : Mark} (h : m.IsCounted text)
    (countable : Text.IsCountable text) : m.IsTrue text :=
  h.trans (Text.capped_positionAt countable.short countable.few _)

namespace Parsed

variable {options : Options} {text : List Char}

end Parsed

end FeatureFile
