import FeatureFile.Document.Steps

namespace FeatureFile

structure Heading where
  tags : List Line
  header : Line
  description : List Line
  deriving DecidableEq, Repr

structure Examples where
  heading : Heading
  rows : List Line
  deriving DecidableEq, Repr

structure Scenario where
  heading : Heading
  steps : Steps
  examples : List Examples

structure Background where
  heading : Heading
  steps : Steps

structure Scenarios where
  anchor : Mark
  entries : List (Entry Scenario)

namespace Heading

def kind (h : Heading) : TokenKind :=
  h.header.kind

def head (h : Heading) : Token :=
  match h.tags with
  | [] => h.header.head
  | l :: _ => l.head

def take? (items : List Item) : Option (Heading × List Item) :=
  let (tags, below) := Item.takeLines (· = .atSign) items
  match below with
  | .line l :: rest =>
    if l.kind.isHeader then
      let (description, rest) := Item.takeLines TokenKind.isProse rest
      some (⟨tags, l, description⟩, rest)
    else none
  | _ => none

theorem take?_eq_some {items rest : List Item} {h : Heading} :
    take? items = some (h, rest) ↔
      ∃ below, Item.takeLines (· = .atSign) items = (h.tags, .line h.header :: below) ∧
        h.kind.isHeader ∧ Item.takeLines TokenKind.isProse below = (h.description, rest) := by
  constructor
  · intro found
    simp only [take?] at found
    split at found
    next l below here =>
      split at found
      next header =>
        obtain ⟨rfl, rfl⟩ := Prod.mk.inj (Option.some.inj found)
        exact ⟨below, Prod.ext rfl here, header, rfl⟩
      next => cases found
    next => cases found
  · rintro ⟨below, tags, header, prose⟩
    rw [kind] at header
    simp only [take?, tags, header, prose, if_true]

theorem length_of_take? {items rest : List Item} {h : Heading} (found : take? items = some (h, rest)) :
    rest.length < items.length := by
  obtain ⟨below, tags, -, prose⟩ := take?_eq_some.mp found
  have front := Item.length_takeLines_le (· = .atSign) items
  have text := Item.length_takeLines_le TokenKind.isProse below
  simp only [tags, List.length_cons] at front
  simp only [prose] at text
  omega

section

variable {α : Type} {wanted : TokenKind → Bool} {ofHeading : Heading → List Item → α × List Item}
  {items rest : List Item} {a : α}

def takeSection (wanted : TokenKind → Bool) (ofHeading : Heading → List Item → α × List Item)
    (items : List Item) : Option (α × List Item) :=
  match take? items with
  | none => none
  | some (h, below) => if wanted h.kind then some (ofHeading h below) else none

theorem takeSection_eq_some :
    takeSection wanted ofHeading items = some (a, rest) ↔
      ∃ h below, take? items = some (h, below) ∧ wanted h.kind ∧
        ofHeading h below = (a, rest) := by
  rw [takeSection]
  split
  next none => simp [none]
  next h below found => simp [found, and_assoc]

theorem length_of_takeSection (shorter : ∀ h items, (ofHeading h items).2.length ≤ items.length)
    (found : takeSection wanted ofHeading items = some (a, rest)) : rest.length < items.length := by
  obtain ⟨h, below, heading, -, whole⟩ := takeSection_eq_some.mp found
  have below := shorter h below
  rw [whole] at below
  exact Nat.lt_of_le_of_lt below (length_of_take? heading)

end

end Heading

def TokenKind.isExamples (k : TokenKind) : Bool :=
  k = .header .examples || k = .header .scenarios

def TokenKind.isScenario (k : TokenKind) : Bool :=
  k = .header .scenario || k = .header .example || k = .header .outline

namespace Examples

def ofHeading (h : Heading) (items : List Item) : Examples × List Item :=
  (⟨h, (Step.takeRows items).1⟩, (Step.takeRows items).2)

theorem length_ofHeading_le (h : Heading) (items : List Item) :
    (ofHeading h items).2.length ≤ items.length :=
  Item.length_takeLines_le _ _

def take? (items : List Item) : Option (Examples × List Item) :=
  Heading.takeSection TokenKind.isExamples ofHeading items

theorem take?_eq_some {items rest : List Item} {e : Examples} :
    take? items = some (e, rest) ↔
      ∃ below, Heading.take? items = some (e.heading, below) ∧ e.heading.kind.isExamples ∧
        Step.takeRows below = (e.rows, rest) := by
  refine Heading.takeSection_eq_some.trans ⟨?_, ?_⟩
  · rintro ⟨h, below, heading, kind, whole⟩
    obtain ⟨rfl, rfl⟩ := Prod.mk.inj whole
    exact ⟨below, heading, kind, rfl⟩
  · rintro ⟨below, heading, kind, rows⟩
    exact ⟨e.heading, below, heading, kind, by rw [ofHeading, rows]⟩

theorem length_of_take? {items rest : List Item} {e : Examples} (found : take? items = some (e, rest)) :
    rest.length < items.length :=
  Heading.length_of_takeSection length_ofHeading_le found

/-- All examples sections at the front of a list of items. One that has more below it than a table
is the last. -/
def takeAll (items : List Item) : List Examples × List Item :=
  match _found : take? items with
  | none => ([], items)
  | some (e, rest) => (e :: (takeAll rest).1, (takeAll rest).2)
termination_by items.length
decreasing_by all_goals exact length_of_take? _found

theorem takeAll_of_none {items : List Item} (found : take? items = none) :
    takeAll items = ([], items) := by
  rw [takeAll]
  split <;> simp_all

theorem takeAll_of_some {items rest : List Item} {e : Examples} (found : take? items = some (e, rest)) :
    takeAll items = (e :: (takeAll rest).1, (takeAll rest).2) := by
  rw [takeAll]
  split <;> simp_all

theorem length_takeAll_le (items : List Item) : (takeAll items).2.length ≤ items.length := by
  induction items using takeAll.induct with
  | case1 items found => simp [takeAll_of_none found]
  | case2 items e rest found ih =>
    have := length_of_take? found
    simp only [takeAll_of_some found]
    omega

end Examples

namespace Scenario

def ofHeading (eof : Mark) (h : Heading) (items : List Item) : Scenario × List Item :=
  let (steps, below) := Steps.take (Item.startOf eof items) items
  let (examples, rest) := Examples.takeAll below
  (⟨h, steps, examples⟩, rest)

theorem length_ofHeading_le (eof : Mark) (h : Heading) (items : List Item) :
    (ofHeading eof h items).2.length ≤ items.length :=
  Nat.le_trans (Examples.length_takeAll_le _) (Steps.length_take_le (Item.startOf eof items) items)

def take? (eof : Mark) (items : List Item) : Option (Scenario × List Item) :=
  Heading.takeSection TokenKind.isScenario (ofHeading eof) items

theorem length_of_take? {eof : Mark} {items rest : List Item} {s : Scenario}
    (found : take? eof items = some (s, rest)) : rest.length < items.length :=
  Heading.length_of_takeSection (length_ofHeading_le eof) found

end Scenario

namespace Scenarios

def entriesOf (eof : Mark) : List Item → List (Entry Scenario)
  | [] => []
  | i :: items =>
    match _found : Scenario.take? eof (i :: items) with
    | some (s, rest) => .placed s :: entriesOf eof rest
    | none => .stray i :: entriesOf eof items
termination_by items => items.length
decreasing_by
  · exact Scenario.length_of_take? _found
  · simp

theorem entriesOf_of_some {eof : Mark} {i : Item} {items rest : List Item} {s : Scenario}
    (found : Scenario.take? eof (i :: items) = some (s, rest)) :
    entriesOf eof (i :: items) = .placed s :: entriesOf eof rest := by
  rw [entriesOf]
  split <;> simp_all

theorem entriesOf_of_none {eof : Mark} {i : Item} {items : List Item}
    (found : Scenario.take? eof (i :: items) = none) :
    entriesOf eof (i :: items) = .stray i :: entriesOf eof items := by
  rw [entriesOf]
  split <;> simp_all

def ofItems (eof : Mark) (items : List Item) : Scenarios :=
  ⟨Item.startOf eof items, entriesOf eof items⟩

end Scenarios

namespace Background

def take (eof : Mark) : List Item → Option Background × List Item
  | .line l :: rest =>
    if l.kind = .header .background then
      let (description, below) := Item.takeLines TokenKind.isProse rest
      let (steps, rest) := Steps.take (Item.startOf eof below) below
      (some ⟨⟨[], l, description⟩, steps⟩, rest)
    else (none, .line l :: rest)
  | items => (none, items)

theorem length_take_le (eof : Mark) (items : List Item) : (take eof items).2.length ≤ items.length := by
  unfold take
  split
  next l rest =>
    split
    · have := Item.length_takeLines_le TokenKind.isProse rest
      have := Steps.length_take_le (Item.startOf eof (Item.takeLines TokenKind.isProse rest).2)
        (Item.takeLines TokenKind.isProse rest).2
      simp only [List.length_cons]
      omega
    · simp
  next => simp

end Background

end FeatureFile
