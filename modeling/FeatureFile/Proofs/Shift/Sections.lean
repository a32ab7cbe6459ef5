import FeatureFile.Proofs.Document.Flat
import FeatureFile.Proofs.Shift.Items

namespace FeatureFile

namespace Entry

def shift {α : Type} (d : Shift) (f : α → α) : Entry α → Entry α
  | placed a => placed (f a)
  | stray i => stray (i.shift d)

end Entry

namespace Step

def shift (d : Shift) (s : Step) : Step :=
  ⟨s.line.shift d, s.block.map (Block.shift d), s.rows.map (Line.shift d)⟩

end Step

def Steps.shift (d : Shift) (s : Steps) : Steps :=
  ⟨s.anchor.shift d, s.entries.map (Entry.shift d (Step.shift d))⟩

def Heading.shift (d : Shift) (h : Heading) : Heading :=
  ⟨h.tags.map (Line.shift d), h.header.shift d, h.description.map (Line.shift d)⟩

def Examples.shift (d : Shift) (e : Examples) : Examples :=
  ⟨e.heading.shift d, e.rows.map (Line.shift d)⟩

def Scenario.shift (d : Shift) (s : Scenario) : Scenario :=
  ⟨s.heading.shift d, s.steps.shift d, s.examples.map (Examples.shift d)⟩

variable (d : Shift)

lemma Item.takeLines_shift (wanted : TokenKind → Bool) (items : List Item) :
    takeLines wanted (items.map (shift d)) =
      ((takeLines wanted items).1.map (Line.shift d), (takeLines wanted items).2.map (shift d)) := by
  induction items with
  | nil => rfl
  | cons i items ih =>
    cases i with
    | block b => rfl
    | line l => by_cases more : wanted l.kind <;> simp [takeLines, shift, more, ih]

namespace Step

lemma takeBlock_shift (items : List Item) :
    takeBlock (items.map (Item.shift d)) =
      ((takeBlock items).1.map (Block.shift d), (takeBlock items).2.map (Item.shift d)) := by
  rcases items with _ | ⟨l | b, items⟩ <;> rfl

lemma take_shift (l : Line) (items : List Item) :
    take (l.shift d) (items.map (Item.shift d)) =
      ((take l items).1.shift d, (take l items).2.map (Item.shift d)) := by
  simp only [take, takeBlock_shift, takeRows, Item.takeLines_shift]
  rfl

end Step

namespace Steps

lemma entriesOf_shift (items : List Item) :
    entriesOf (items.map (Item.shift d)) =
      (entriesOf items).map (Entry.shift d (Step.shift d)) := by
  induction items using entriesOf.induct with
  | case1 => simp [entriesOf]
  | case2 b rest ih => simp [entriesOf, Item.shift, Entry.shift, ih]
  | case3 l rest step ih =>
    rw [List.map_cons, Item.shift, entriesOf, entriesOf, Line.kind_shift, if_pos step, if_pos step,
      Step.take_shift, ih]
    rfl
  | case4 l rest other ih => simp [entriesOf, other, Item.shift, Entry.shift, ih]

lemma take_shift (anchor : Mark) (items : List Item) :
    take (anchor.shift d) (items.map (Item.shift d)) =
      ((take anchor items).1.shift d, (take anchor items).2.map (Item.shift d)) := by
  have same : (fun i : Item => i.kind.isBody) ∘ Item.shift d = fun i => i.kind.isBody := by
    funext i
    simp
  rw [take, take, List.takeWhile_map, List.dropWhile_map, same, entriesOf_shift]
  rfl

end Steps

lemma Heading.take?_shift (items : List Item) :
    take? (items.map (Item.shift d)) =
      (take? items).map fun (h, rest) => (h.shift d, rest.map (Item.shift d)) := by
  rw [take?, take?, Item.takeLines_shift]
  obtain ⟨tags, below⟩ := Item.takeLines (· = .atSign) items
  rcases below with _ | ⟨l | b, rest⟩
  · rfl
  · by_cases header : l.kind.isHeader <;> simp [Item.shift, header, Item.takeLines_shift, shift]
  · rfl

lemma Heading.takeSection_shift {α : Type} {f : α → α} (wanted : TokenKind → Bool)
    {ofHeading ofHeading' : Heading → List Item → α × List Item}
    (inner : ∀ h items, ofHeading' (shift d h) (items.map (Item.shift d)) =
      (f (ofHeading h items).1, (ofHeading h items).2.map (Item.shift d))) (items : List Item) :
    takeSection wanted ofHeading' (items.map (Item.shift d)) =
      (takeSection wanted ofHeading items).map fun (a, rest) =>
        (f a, rest.map (Item.shift d)) := by
  rw [takeSection, takeSection, take?_shift]
  rcases take? items with _ | ⟨h, below⟩
  · rfl
  · have kind : (h.shift d).kind = h.kind := rfl
    by_cases here : wanted h.kind <;> simp [kind, here, inner]

namespace Examples

lemma take?_shift (items : List Item) :
    take? (items.map (Item.shift d)) =
      (take? items).map fun (e, rest) => (e.shift d, rest.map (Item.shift d)) :=
  Heading.takeSection_shift d _
    (fun h items => by simp [ofHeading, Step.takeRows, Item.takeLines_shift, shift]) items

lemma takeAll_shift (items : List Item) :
    takeAll (items.map (Item.shift d)) =
      ((takeAll items).1.map (shift d), (takeAll items).2.map (Item.shift d)) := by
  induction items using takeAll.induct with
  | case1 items found =>
    have none := take?_shift d items
    rw [found] at none
    rw [takeAll_of_none found, takeAll_of_none none]
    rfl
  | case2 items e rest found ih =>
    have some := take?_shift d items
    rw [found] at some
    rw [takeAll_of_some found, takeAll_of_some some, ih]
    rfl

end Examples

namespace Scenario

variable (eof : Mark)

lemma ofHeading_shift (h : Heading) (items : List Item) :
    ofHeading (eof.shift d) (h.shift d) (items.map (Item.shift d)) =
      ((ofHeading eof h items).1.shift d, (ofHeading eof h items).2.map (Item.shift d)) := by
  simp only [ofHeading, Item.startOf_shift, Steps.take_shift, Examples.takeAll_shift]
  rfl

lemma take?_shift (items : List Item) :
    take? (eof.shift d) (items.map (Item.shift d)) =
      (take? eof items).map fun (s, rest) => (s.shift d, rest.map (Item.shift d)) :=
  Heading.takeSection_shift d _ (ofHeading_shift d eof) items

end Scenario

namespace Scenarios

variable (eof : Mark)

lemma entriesOf_shift (items : List Item) :
    entriesOf (eof.shift d) (items.map (Item.shift d)) =
      (entriesOf eof items).map (Entry.shift d (Scenario.shift d)) := by
  induction items using entriesOf.induct eof with
  | case1 => simp [entriesOf]
  | case2 i items s rest found ih =>
    have some := Scenario.take?_shift d eof (i :: items)
    rw [found, List.map_cons] at some
    rw [entriesOf_of_some found, List.map_cons, entriesOf_of_some some, ih]
    rfl
  | case3 i items found ih =>
    have none := Scenario.take?_shift d eof (i :: items)
    rw [found, List.map_cons] at none
    rw [entriesOf_of_none found, List.map_cons, entriesOf_of_none none, ih]
    rfl

lemma membersOf_shift (items : List Item) :
    membersOf (eof.shift d) (items.map (Item.shift d)) =
      (membersOf eof items).map (Scenario.shift d) := by
  have placed : Entry.placed? ∘ Entry.shift d (Scenario.shift d) =
      fun e => (Entry.placed? e).map (Scenario.shift d) := by
    funext e
    cases e <;> rfl
  simp only [membersOf, members, ofItems, entriesOf_shift, List.filterMap_map, placed,
    List.map_filterMap]

end Scenarios

end FeatureFile
