import FeatureFile.Document.Scenario
import FeatureFile.Token.Stream

namespace FeatureFile

structure BusinessRule where
  heading : Heading
  background : Option Background
  scenarios : Scenarios

inductive Content where
  | scenarios (scenarios : Scenarios)
  | rules (entries : List (Entry BusinessRule))

structure MissingHeader where
  found : TokenKind
  met : Token
  deriving DecidableEq, Repr

/-- The front of a file: lines that belong to nothing, and the heading. `anchor` is where a heading
that is not there would have been. -/
structure Opening where
  missing : Option MissingHeader
  junk : List Line
  heading : Option Heading
  anchor : Mark

structure Feature where
  opening : Opening
  anchor : Mark
  background : Option Background
  content : Content

namespace BusinessRule

def startsAt (items : List Item) : Bool :=
  match Heading.take? items with
  | some (h, _) => h.kind = .header .rule
  | none => false

def untilNext : List Item → List Item × List Item
  | [] => ([], [])
  | i :: rest =>
    if startsAt (i :: rest) then ([], i :: rest)
    else (i :: (untilNext rest).1, (untilNext rest).2)

theorem length_untilNext (items : List Item) :
    (untilNext items).1.length + (untilNext items).2.length = items.length := by
  induction items with
  | nil => simp [untilNext]
  | cons i rest ih => by_cases h : startsAt (i :: rest) <;> simp [untilNext, h]; omega

def ofHeading (eof : Mark) (h : Heading) (items : List Item) : BusinessRule × List Item :=
  let (background, below) := Background.take eof items
  let (own, rest) := untilNext below
  (⟨h, background, Scenarios.ofItems (Item.startOf eof rest) own⟩, rest)

theorem length_ofHeading_le (eof : Mark) (h : Heading) (items : List Item) :
    (ofHeading eof h items).2.length ≤ items.length := by
  have := length_untilNext (Background.take eof items).2
  have := Background.length_take_le eof items
  simp only [ofHeading]
  omega

def take? (eof : Mark) (items : List Item) : Option (BusinessRule × List Item) :=
  Heading.takeSection (· = .header .rule) (ofHeading eof) items

theorem length_of_take? {eof : Mark} {items rest : List Item} {r : BusinessRule}
    (found : take? eof items = some (r, rest)) : rest.length < items.length :=
  Heading.length_of_takeSection (length_ofHeading_le eof) found

def entriesOf (eof : Mark) : List Item → List (Entry BusinessRule)
  | [] => []
  | i :: items =>
    match _found : take? eof (i :: items) with
    | some (r, rest) => .placed r :: entriesOf eof rest
    | none =>
      if (i :: items).all (·.kind = .atSign) then [] else .stray i :: entriesOf eof items
termination_by items => items.length
decreasing_by
  · exact length_of_take? _found
  · simp

theorem entriesOf_of_none {eof : Mark} {i : Item} {items : List Item}
    (found : take? eof (i :: items) = none) :
    entriesOf eof (i :: items) =
      if (i :: items).all (·.kind = .atSign) then [] else .stray i :: entriesOf eof items := by
  rw [entriesOf]
  split <;> simp_all

theorem entriesOf_of_some {eof : Mark} {items rest : List Item} {r : BusinessRule}
    (found : take? eof items = some (r, rest)) :
    entriesOf eof items = .placed r :: entriesOf eof rest := by
  cases items with
  | nil => cases found
  | cons i items =>
    rw [entriesOf]
    split <;> simp_all

end BusinessRule

namespace Opening

def kindBehindTags : List RawLine → TokenKind
  | [] => .eof
  | l :: rest =>
    match l.significant? with
    | none => kindBehindTags rest
    | some found => if found.kind = .atSign then kindBehindTags rest else found.kind

def endsJunk (k : TokenKind) : Bool :=
  (k.isHeader && !k.isExamples) || k = .eof

def skipJunk : List RawLine → List Line × List RawLine
  | [] => ([], [])
  | l :: rest =>
    match l.significant? with
    | none => skipJunk rest
    | some found =>
      if endsJunk (kindBehindTags (l :: rest)) then ([], l :: rest)
      else (found :: (skipJunk rest).1, (skipJunk rest).2)

def firstToken (eof : Token) (lines : List RawLine) : Token :=
  ((lines.findSome? RawLine.significant?).map (·.head)).getD eof

def missing? (eof : Token) (lines : List RawLine) : Option MissingHeader :=
  if kindBehindTags lines = .header .feature then none
  else some ⟨kindBehindTags lines, firstToken eof lines⟩

def takeHeading (items : List Item) : Option Heading × List Item :=
  match Heading.take? items with
  | some (h, below) => if h.kind = .header .feature then (some h, below) else (none, items)
  | none => (none, items)

def anchorOf (eof : Mark) (junk : List Line) (items : List Item) : Mark :=
  match junk.getLast? with
  | some l => l.stop
  | none => Item.startOf eof items

def take (eof : Token) (lines : List RawLine) : Opening × List Item :=
  let (junk, below) := skipJunk lines
  let items := Item.ofLines none below
  let (heading, rest) := takeHeading items
  (⟨missing? eof lines, junk, heading, anchorOf eof.start junk items⟩, rest)

end Opening

namespace Content

def ofItems (eof : Mark) (items : List Item) : Content :=
  if BusinessRule.startsAt items then .rules (BusinessRule.entriesOf eof items)
  else .scenarios (Scenarios.ofItems eof items)

end Content

namespace Feature

def ofLines (eof : Token) (lines : List RawLine) : Feature :=
  let (opening, items) := Opening.take eof lines
  let (background, rest) := Background.take eof.start items
  ⟨opening, Item.startOf eof.start items, background, Content.ofItems eof.start rest⟩

def ofStream (s : Stream) : Feature :=
  ofLines s.eof (RawLine.ofTokens s.content)

end Feature

end FeatureFile
