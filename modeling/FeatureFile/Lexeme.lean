import FeatureFile.Token.Kind
import FeatureFile.Text.Alphanumeric
import FeatureFile.Text.Blank

/-!
Lexemes, the tokens of a text before they are given places, and the verdicts by which they are cut
off: what kind of lexeme begins at a character and how many more characters it takes.
-/

namespace FeatureFile

structure Lexeme where
  kind : TokenKind
  text : List Char
  /-- On a quote that nothing closes: the bytes from it to the end of the line. -/
  openQuote : Option Nat := none
  deriving DecidableEq, Repr

/-- The verdict on a character: the kind of a lexeme, the number of its characters behind the first,
and the state in which the scan goes on. -/
structure Cut (σ : Type) where
  kind : TokenKind
  more : Nat
  next : σ
  openQuote : Option Nat := none

namespace Lexeme

open Text

def ofCut {σ : Type} (cut : Cut σ) (c : Char) (rest : List Char) : Lexeme :=
  ⟨cut.kind, c :: rest.take cut.more, cut.openQuote⟩

def padKind (c : Char) : TokenKind :=
  if c = '\t' then .tab else .space

def isWordStart : Option Char → Bool
  | none => true
  | some c => !isAlphanumeric c

def isTagChar (c : Char) : Bool :=
  !isBlank c && c != '@'

end Lexeme

end FeatureFile
