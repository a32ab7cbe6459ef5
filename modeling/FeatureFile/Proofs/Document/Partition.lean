import Mathlib.Tactic.Lemma
import FeatureFile.Document.Feature

/-!
A document and the items it was read from. Each part of a document has items of its own, and reading
a part splits the items into its own and those left over: nothing is lost, doubled or moved.
-/

namespace FeatureFile

namespace Item

lemma map_line_takeLines (wanted : TokenKind → Bool) (items : List Item) :
    (takeLines wanted items).1.map line ++ (takeLines wanted items).2 = items := by
  induction items with
  | nil => rfl
  | cons i rest ih =>
    cases i with
    | block b => rfl
    | line l => by_cases h : wanted l.kind <;> simp [takeLines, h, ih]

lemma wanted_of_mem_takeLines {wanted : TokenKind → Bool} {items : List Item} :
    ∀ l ∈ (takeLines wanted items).1, wanted l.kind := by
  induction items with
  | nil => simp [takeLines]
  | cons i rest ih =>
    cases i with
    | block b => simp [takeLines]
    | line l => by_cases h : wanted l.kind <;> simp_all [takeLines]

end Item

namespace Step

def items (s : Step) : List Item :=
  .line s.line :: (s.block.toList.map .block ++ s.rows.map .line)

lemma map_block_takeBlock (items : List Item) :
    (takeBlock items).1.toList.map .block ++ (takeBlock items).2 = items := by
  unfold takeBlock
  split <;> rfl

lemma items_take (l : Line) (items : List Item) :
    (take l items).1.items ++ (take l items).2 = .line l :: items := by
  simp only [take, Step.items, takeRows, List.cons_append, List.append_assoc]
  rw [Item.map_line_takeLines, map_block_takeBlock]

end Step

def Entry.items {α : Type} (member : α → List Item) : Entry α → List Item
  | placed a => member a
  | stray i => [i]

namespace Steps

def items (s : Steps) : List Item :=
  s.entries.flatMap (Entry.items Step.items)

lemma items_entriesOf (items : List Item) :
    (entriesOf items).flatMap (Entry.items Step.items) = items := by
  induction items using entriesOf.induct with
  | case1 => simp [entriesOf]
  | case2 b rest ih => simp [entriesOf, Entry.items, ih]
  | case3 l rest step ih =>
    rw [entriesOf, if_pos step, List.flatMap_cons, ih]
    exact Step.items_take l rest
  | case4 l rest other ih => simp [entriesOf, other, Entry.items, ih]

lemma items_take (anchor : Mark) (items : List Item) :
    (take anchor items).1.items ++ (take anchor items).2 = items := by
  simp only [take, Steps.items, items_entriesOf]
  exact List.takeWhile_append_dropWhile

end Steps

namespace Heading

def items (h : Heading) : List Item :=
  h.tags.map .line ++ .line h.header :: h.description.map .line

structure IsFormed (h : Heading) : Prop where
  tags : ∀ l ∈ h.tags, l.kind = .atSign
  header : h.kind.isHeader
  description : ∀ l ∈ h.description, l.kind.isProse

lemma items_of_take? {items rest : List Item} {h : Heading} (found : take? items = some (h, rest)) :
    h.items ++ rest = items := by
  obtain ⟨below, tags, -, prose⟩ := take?_eq_some.mp found
  have front := Item.map_line_takeLines (· = .atSign) items
  have text := Item.map_line_takeLines TokenKind.isProse below
  rw [tags] at front
  rw [prose] at text
  simp only [Heading.items, List.append_assoc, List.cons_append, text, front]

lemma isFormed_of_take? {items rest : List Item} {h : Heading}
    (found : take? items = some (h, rest)) :
    h.IsFormed := by
  obtain ⟨below, tags, header, prose⟩ := take?_eq_some.mp found
  have signs : ∀ l ∈ (Item.takeLines (· = .atSign) items).1, l.kind = .atSign :=
    fun l hl => of_decide_eq_true (Item.wanted_of_mem_takeLines l hl)
  have text : ∀ l ∈ (Item.takeLines TokenKind.isProse below).1, l.kind.isProse :=
    Item.wanted_of_mem_takeLines
  rw [tags] at signs
  rw [prose] at text
  exact ⟨signs, header, text⟩

lemma items_of_takeSection {α : Type} {wanted : TokenKind → Bool}
    {ofHeading : Heading → List Item → α × List Item} {own : α → List Item}
    (whole : ∀ h below, own (ofHeading h below).1 ++ (ofHeading h below).2 = h.items ++ below)
    {items rest : List Item} {a : α} (found : takeSection wanted ofHeading items = some (a, rest)) :
    own a ++ rest = items := by
  obtain ⟨h, below, heading, -, read⟩ := takeSection_eq_some.mp found
  have split := whole h below
  rw [read] at split
  exact split.trans (items_of_take? heading)

end Heading

namespace Examples

def items (e : Examples) : List Item :=
  e.heading.items ++ e.rows.map .line

lemma items_ofHeading (h : Heading) (items : List Item) :
    (ofHeading h items).1.items ++ (ofHeading h items).2 = h.items ++ items := by
  rw [ofHeading, Examples.items, Step.takeRows, List.append_assoc, Item.map_line_takeLines]

lemma items_of_take? {items rest : List Item} {e : Examples}
    (found : take? items = some (e, rest)) : e.items ++ rest = items :=
  Heading.items_of_takeSection items_ofHeading found

lemma items_takeAll (items : List Item) :
    (takeAll items).1.flatMap Examples.items ++ (takeAll items).2 = items := by
  induction items using takeAll.induct with
  | case1 items found => simp [takeAll_of_none found]
  | case2 items e rest found ih =>
    simp only [takeAll_of_some found, List.flatMap_cons, List.append_assoc, ih]
    exact items_of_take? found

end Examples

namespace Scenario

def items (s : Scenario) : List Item :=
  s.heading.items ++ s.steps.items ++ s.examples.flatMap Examples.items

lemma items_ofHeading (eof : Mark) (h : Heading) (items : List Item) :
    (ofHeading eof h items).1.items ++ (ofHeading eof h items).2 = h.items ++ items := by
  simp only [ofHeading, Scenario.items, List.append_assoc, Examples.items_takeAll, Steps.items_take]

lemma items_of_take? {eof : Mark} {items rest : List Item} {s : Scenario}
    (found : take? eof items = some (s, rest)) : s.items ++ rest = items :=
  Heading.items_of_takeSection (items_ofHeading eof) found

end Scenario

namespace Scenarios

def items (s : Scenarios) : List Item :=
  s.entries.flatMap (Entry.items Scenario.items)

lemma items_entriesOf (eof : Mark) (items : List Item) :
    (entriesOf eof items).flatMap (Entry.items Scenario.items) = items := by
  induction items using entriesOf.induct eof with
  | case1 => simp [entriesOf]
  | case2 i items s rest found ih =>
    rw [entriesOf_of_some found, List.flatMap_cons, ih]
    exact Scenario.items_of_take? found
  | case3 i items found ih =>
    rw [entriesOf_of_none found, List.flatMap_cons, ih]
    rfl

end Scenarios

namespace Background

def items (b : Background) : List Item :=
  b.heading.items ++ b.steps.items

lemma items_take (eof : Mark) (items : List Item) :
    (take eof items).1.toList.flatMap Background.items ++ (take eof items).2 = items := by
  unfold take
  split
  case h_2 => rfl
  case h_1 l rest =>
    split
    case isFalse => rfl
    case isTrue =>
      simp [Background.items, Heading.items, Steps.items_take, Item.map_line_takeLines]

end Background

namespace BusinessRule

def items (r : BusinessRule) : List Item :=
  r.heading.items ++ r.background.toList.flatMap Background.items ++ r.scenarios.items

lemma append_untilNext (items : List Item) :
    (untilNext items).1 ++ (untilNext items).2 = items := by
  induction items with
  | nil => rfl
  | cons i rest ih => by_cases h : startsAt (i :: rest) <;> simp [untilNext, h, ih]

lemma startsAt_untilNext (items : List Item) :
    (untilNext items).2 = [] ∨ startsAt (untilNext items).2 := by
  induction items with
  | nil => exact .inl rfl
  | cons i rest ih => by_cases h : startsAt (i :: rest) <;> simp [untilNext, h, ih]

lemma items_ofHeading (eof : Mark) (h : Heading) (items : List Item) :
    (ofHeading eof h items).1.items ++ (ofHeading eof h items).2 = h.items ++ items := by
  simp only [ofHeading, BusinessRule.items, Scenarios.items, Scenarios.ofItems,
    Scenarios.items_entriesOf, List.append_assoc, append_untilNext, Background.items_take]

lemma items_of_take? {eof : Mark} {items rest : List Item} {r : BusinessRule}
    (found : take? eof items = some (r, rest)) : r.items ++ rest = items :=
  Heading.items_of_takeSection (items_ofHeading eof) found

lemma startsAt_of_take? {eof : Mark} {items rest : List Item} {r : BusinessRule}
    (found : take? eof items = some (r, rest)) : rest = [] ∨ startsAt rest := by
  obtain ⟨h, below, -, -, whole⟩ := Heading.takeSection_eq_some.mp found
  obtain ⟨-, rfl⟩ := Prod.mk.inj whole
  exact startsAt_untilNext _

lemma take?_eq_none {eof : Mark} {items : List Item} :
    take? eof items = none ↔ startsAt items = false := by
  rw [take?, Heading.takeSection, startsAt]
  cases Heading.take? items with
  | none => simp
  | some found => simp

lemma row_induction (eof : Mark) {motive : List Item → Prop} (nil : motive [])
    (cons : ∀ items r rest, take? eof items = some (r, rest) → motive rest → motive items)
    {items : List Item} (start : items = [] ∨ startsAt items) : motive items := by
  induction items using entriesOf.induct eof with
  | case1 => exact nil
  | case2 i items r rest found ih => exact cons _ r rest found (ih (startsAt_of_take? found))
  | case3 i items none | case4 i items none =>
    rcases start with empty | starts
    · cases empty
    · simp [take?_eq_none.mp none] at starts

theorem isStray_of_mem_entriesOf {eof : Mark} {items : List Item}
    (start : items = [] ∨ startsAt items) : ∀ e ∈ entriesOf eof items, e.isStray = false := by
  refine row_induction eof (motive := fun items => ∀ e ∈ entriesOf eof items, e.isStray = false)
    (by simp [entriesOf]) (fun items r rest found below => ?_) start
  rw [entriesOf_of_some found]
  exact List.forall_mem_cons.mpr ⟨rfl, below⟩

lemma items_entriesOf (eof : Mark) {items : List Item} (start : items = [] ∨ startsAt items) :
    (entriesOf eof items).flatMap (Entry.items BusinessRule.items) = items := by
  refine row_induction eof
    (motive := fun items => (entriesOf eof items).flatMap (Entry.items BusinessRule.items) = items)
    (by simp [entriesOf]) (fun items r rest found below => ?_) start
  rw [entriesOf_of_some found, List.flatMap_cons, below]
  exact items_of_take? found

end BusinessRule

namespace Content

def items : Content → List Item
  | scenarios s => s.items
  | rules es => es.flatMap (Entry.items BusinessRule.items)

lemma items_rules (rs : List BusinessRule) :
    (rules (rs.map .placed)).items = rs.flatMap BusinessRule.items :=
  List.flatMap_map ..

lemma items_ofItems (eof : Mark) (items : List Item) : (ofItems eof items).items = items := by
  rw [ofItems]
  split
  case isTrue start => exact BusinessRule.items_entriesOf eof (.inr start)
  case isFalse => exact Scenarios.items_entriesOf eof items

end Content

lemma Opening.items_takeHeading (items : List Item) :
    (takeHeading items).1.toList.flatMap Heading.items ++ (takeHeading items).2 = items := by
  rw [takeHeading]
  split
  case h_2 => rfl
  case h_1 h below found =>
    split
    case isTrue => simpa using Heading.items_of_take? found
    case isFalse => rfl

namespace Feature

def items (f : Feature) : List Item :=
  f.opening.heading.toList.flatMap Heading.items ++ f.background.toList.flatMap Background.items ++
    f.content.items

theorem items_ofLines (eof : Token) (lines : List RawLine) :
    (ofLines eof lines).items = Item.ofLines none (Opening.skipJunk lines).2 := by
  simp only [ofLines, Feature.items, Opening.take, Content.items_ofItems, List.append_assoc,
    Background.items_take, Opening.items_takeHeading]

end Feature

end FeatureFile
