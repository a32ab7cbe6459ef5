import FeatureFile.Document.Line

namespace FeatureFile

inductive TagPart where
  | tag (sign : Token) (name : Option Token)
  | stray (token : Token)
  deriving DecidableEq, Repr

namespace TagPart

def isStray : TagPart → Bool
  | tag _ _ => false
  | stray _ => true

def name? (rest : List Token) : Option Token :=
  rest.head?.filter (·.kind = .text)

def ofTokens : Bool → List Token → List TagPart
  | _, [] => []
  | signed, t :: rest =>
    if t.kind = .atSign then tag t (name? rest) :: ofTokens true rest
    else if t.kind.isTrivia || (signed && t.kind = .text) then ofTokens false rest
    else stray t :: ofTokens false rest

end TagPart

def Line.tagParts (l : Line) : List TagPart :=
  TagPart.ofTokens false (l.head :: l.tail)

inductive RowPart where
  | cell (tokens : List Token)
  | loose (token : Token)
  deriving DecidableEq, Repr

namespace RowPart

def isCell : RowPart → Bool
  | cell _ => true
  | loose _ => false

def split : List Token → List Token × List (List Token)
  | [] => ([], [])
  | t :: rest =>
    if t.kind = .pipe then ([], (t :: (split rest).1) :: (split rest).2)
    else (t :: (split rest).1, (split rest).2)

/-- Each bar begins a cell, but the last one does only if there is content behind it. -/
def ofGroups : List (List Token) → List RowPart
  | [] => []
  | [last] => if last.any (·.kind = .cell) then [cell last] else last.map loose
  | group :: rest => cell group :: ofGroups rest

end RowPart

def Line.rowParts (l : Line) : List RowPart :=
  let (lead, groups) := RowPart.split (l.head :: l.tail)
  lead.map RowPart.loose ++ RowPart.ofGroups groups

def Line.cellCount (l : Line) : Nat :=
  l.rowParts.countP RowPart.isCell

end FeatureFile
