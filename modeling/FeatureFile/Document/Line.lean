import FeatureFile.Token.Basic

namespace FeatureFile

structure RawLine where
  content : List Token
  ending : Option Token
  deriving DecidableEq, Repr

/-- A line from its first token that is neither layout nor comment. -/
structure Line where
  head : Token
  tail : List Token
  ending : Option Token
  deriving DecidableEq, Repr

namespace RawLine

def tokens (l : RawLine) : List Token :=
  l.content ++ l.ending.toList

def prepend (t : Token) : List RawLine → List RawLine
  | [] => [⟨[t], none⟩]
  | l :: rest => ⟨t :: l.content, l.ending⟩ :: rest

def ofTokens : List Token → List RawLine
  | [] => []
  | t :: rest =>
    if t.kind = .eol then ⟨[], some t⟩ :: ofTokens rest else prepend t (ofTokens rest)

def significant? (l : RawLine) : Option Line :=
  match l.content.dropWhile (·.kind.isTrivia) with
  | [] => none
  | t :: rest => some ⟨t, rest, l.ending⟩

end RawLine

namespace Line

def kind (l : Line) : TokenKind :=
  l.head.kind

def tokens (l : Line) : List Token :=
  l.head :: l.tail ++ l.ending.toList

def start (l : Line) : Mark :=
  l.head.start

def lastOf (head : Token) (rest : List Token) : Token :=
  rest.getLast?.getD head

def contentStop (l : Line) : Mark :=
  (lastOf l.head l.tail).stop

def stop (l : Line) : Mark :=
  match l.ending with
  | some t => t.stop
  | none => l.contentStop

end Line

end FeatureFile
