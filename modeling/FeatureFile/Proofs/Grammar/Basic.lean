import Mathlib.Computability.RegularExpressions
import FeatureFile.Document.Item

/-!
The grammar of feature files, over lines and doc strings. A text is a list of segments: each line with
something on it is one, by its first token that is neither layout nor comment, and each doc string
as a whole. A segment is clean if nothing is wrong within it.
-/

namespace FeatureFile.Grammar

open RegularExpression (char star)

inductive Symbol where
  | feature | background | rule | scenario | outline | examples | step | row | prose | tags | doc
  deriving DecidableEq, Repr

def Symbol.ofHeader : HeaderWord → Symbol
  | .feature => feature
  | .background => background
  | .rule => rule
  | .scenario | .example => scenario
  | .outline => outline
  | .examples | .scenarios => examples

def Symbol.ofKind : TokenKind → Symbol
  | .header word => ofHeader word
  | .step _ => step
  | .pipe => row
  | .atSign => tags
  | .fence => doc
  | _ => prose

structure Segment where
  symbol : Symbol
  clean : Bool
  deriving DecidableEq, Repr

/-- On a clean tag line each sign has a name right behind it, and there is no other text. -/
def isCleanTags (kinds : List TokenKind) : Bool :=
  decide (List.IsChain (fun k next : TokenKind => k = .atSign ↔ next = .text)
    (.eol :: kinds ++ [.eol]))

def Segment.ofLine (l : Line) : Segment :=
  ⟨.ofKind l.kind, l.kind ≠ .atSign || isCleanTags ((l.head :: l.tail).map Token.kind)⟩

/-- The segments of a list of lines, the first of which begins inside of a doc string or not. A doc
string is clean if it is closed with only padding behind its closing fence. -/
def segments : Bool → List RawLine → List Segment
  | false, [] => []
  | true, [] => [⟨.doc, false⟩]
  | false, l :: rest =>
    match l.significant? with
    | none => segments false rest
    | some found =>
      if found.kind = .fence then segments true rest else .ofLine found :: segments false rest
  | true, l :: rest =>
    match Item.closing? l with
    | none => segments true rest
    | some (_, _, more) => ⟨.doc, more.all (·.kind.isPad)⟩ :: segments false rest

def header (s : Symbol) : RegularExpression Symbol :=
  char s * star (char .prose)

def heading (s : Symbol) : RegularExpression Symbol :=
  star (char .tags) * header s

def step : RegularExpression Symbol :=
  char .step * (1 + char .doc) * star (char .row)

def examples : RegularExpression Symbol :=
  heading .examples * (char .row * star (char .row))

def item : RegularExpression Symbol :=
  heading .scenario * star step + heading .outline * star step * (examples * star examples)

def background : RegularExpression Symbol :=
  header .background * star step

def rule : RegularExpression Symbol :=
  heading .rule * (1 + background) * star item

def feature : RegularExpression Symbol :=
  heading .feature * (1 + background) * (rule * star rule + star item)

end FeatureFile.Grammar
