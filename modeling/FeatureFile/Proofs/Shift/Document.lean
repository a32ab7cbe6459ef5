import FeatureFile.Proofs.Document.Flat
import FeatureFile.Proofs.Shift.Trees

namespace FeatureFile

def Background.shift (d : Shift) (b : Background) : Background :=
  ⟨b.heading.shift d, b.steps.shift d⟩

def Scenarios.shift (d : Shift) (s : Scenarios) : Scenarios :=
  ⟨s.anchor.shift d, s.entries.map (Entry.shift d (Scenario.shift d))⟩

def BusinessRule.shift (d : Shift) (r : BusinessRule) : BusinessRule :=
  ⟨r.heading.shift d, r.background.map (Background.shift d), r.scenarios.shift d⟩

def Content.shift (d : Shift) : Content → Content
  | scenarios s => scenarios (s.shift d)
  | rules es => rules (es.map (Entry.shift d (BusinessRule.shift d)))

def MissingHeader.shift (d : Shift) (m : MissingHeader) : MissingHeader :=
  ⟨m.found, m.met.shift d⟩

def Opening.shift (d : Shift) (o : Opening) : Opening :=
  ⟨o.missing.map (MissingHeader.shift d), o.junk.map (Line.shift d),
    o.heading.map (Heading.shift d), o.anchor.shift d⟩

def Feature.shift (d : Shift) (f : Feature) : Feature :=
  ⟨f.opening.shift d, f.anchor.shift d, f.background.map (Background.shift d), f.content.shift d⟩

variable (d : Shift)

lemma Scenarios.ofItems_shift (eof : Mark) (items : List Item) :
    ofItems (eof.shift d) (items.map (Item.shift d)) = (ofItems eof items).shift d := by
  rw [ofItems, Item.startOf_shift, entriesOf_shift]
  rfl

lemma Background.take_shift (eof : Mark) (items : List Item) :
    take (eof.shift d) (items.map (Item.shift d)) =
      ((take eof items).1.map (shift d), (take eof items).2.map (Item.shift d)) := by
  rcases items with _ | ⟨l | b, items⟩
  · rfl
  · by_cases background : l.kind = .header .background
    · simp only [take, List.map_cons, Item.shift, Line.kind_shift, if_pos background,
        Item.takeLines_shift, Item.startOf_shift, Steps.take_shift]
      rfl
    · simp [take, Item.shift, background]
  · rfl

namespace BusinessRule

lemma startsAt_shift (items : List Item) :
    startsAt (items.map (Item.shift d)) = startsAt items := by
  rw [startsAt, startsAt, Heading.take?_shift]
  cases Heading.take? items <;> rfl

lemma untilNext_shift (items : List Item) :
    untilNext (items.map (Item.shift d)) =
      ((untilNext items).1.map (Item.shift d), (untilNext items).2.map (Item.shift d)) := by
  induction items with
  | nil => rfl
  | cons i rest ih =>
    have starts := startsAt_shift d (i :: rest)
    rw [List.map_cons] at starts
    by_cases here : startsAt (i :: rest) <;> simp [untilNext, starts, here, ih]

variable (eof : Mark)

lemma ofHeading_shift (h : Heading) (items : List Item) :
    ofHeading (eof.shift d) (h.shift d) (items.map (Item.shift d)) =
      ((ofHeading eof h items).1.shift d, (ofHeading eof h items).2.map (Item.shift d)) := by
  simp only [ofHeading, Background.take_shift, untilNext_shift, Item.startOf_shift,
    Scenarios.ofItems_shift]
  rfl

lemma take?_shift (items : List Item) :
    take? (eof.shift d) (items.map (Item.shift d)) =
      (take? eof items).map fun (r, rest) => (r.shift d, rest.map (Item.shift d)) :=
  Heading.takeSection_shift d _ (ofHeading_shift d eof) items

lemma entriesOf_shift (items : List Item) :
    entriesOf (eof.shift d) (items.map (Item.shift d)) =
      (entriesOf eof items).map (Entry.shift d (shift d)) := by
  have tags (items : List Item) : (items.map (Item.shift d)).all (·.kind = .atSign) =
      items.all (·.kind = .atSign) := by
    simp [Function.comp_def]
  have taken (items : List Item) := take?_shift d eof items
  induction items using entriesOf.induct eof with
  | case1 => simp [entriesOf]
  | case2 i items r rest found ih =>
    have some := taken (i :: items)
    rw [found] at some
    rw [entriesOf_of_some found, entriesOf_of_some some, ih]
    rfl
  | case3 i items found more =>
    have none := taken (i :: items)
    rw [found, List.map_cons] at none
    rw [entriesOf_of_none found, List.map_cons, entriesOf_of_none none, ← List.map_cons, tags,
      if_pos more, if_pos more]
    rfl
  | case4 i items found more ih =>
    have none := taken (i :: items)
    rw [found, List.map_cons] at none
    rw [entriesOf_of_none found, List.map_cons, entriesOf_of_none none, ← List.map_cons, tags,
      if_neg more, if_neg more, ih]
    rfl

end BusinessRule

lemma Content.ofItems_shift (eof : Mark) (items : List Item) :
    ofItems (eof.shift d) (items.map (Item.shift d)) = (ofItems eof items).shift d := by
  rw [ofItems, ofItems, BusinessRule.startsAt_shift, BusinessRule.entriesOf_shift,
    Scenarios.ofItems_shift]
  split <;> rfl

namespace Opening

lemma kindBehindTags_shift (ls : List RawLine) :
    kindBehindTags (ls.map (RawLine.shift d)) = kindBehindTags ls := by
  induction ls with
  | nil => rfl
  | cons l rest ih =>
    rw [List.map_cons, kindBehindTags, kindBehindTags, RawLine.significant?_shift]
    cases l.significant? <;> simp [ih]

lemma skipJunk_shift (ls : List RawLine) :
    skipJunk (ls.map (RawLine.shift d)) =
      ((skipJunk ls).1.map (Line.shift d), (skipJunk ls).2.map (RawLine.shift d)) := by
  induction ls with
  | nil => rfl
  | cons l rest ih =>
    have kind := kindBehindTags_shift d (l :: rest)
    rw [List.map_cons] at kind
    rw [List.map_cons, skipJunk, skipJunk, RawLine.significant?_shift, kind, ih]
    cases l.significant? with
    | none => rfl
    | some found => by_cases ends : endsJunk (kindBehindTags (l :: rest)) <;> simp [ends]

lemma firstToken_shift (eof : Token) (ls : List RawLine) :
    firstToken (eof.shift d) (ls.map (RawLine.shift d)) = (firstToken eof ls).shift d := by
  rw [firstToken, firstToken]
  induction ls with
  | nil => rfl
  | cons l rest ih =>
    rw [List.map_cons, List.findSome?_cons, List.findSome?_cons, RawLine.significant?_shift]
    cases l.significant? with
    | none => exact ih
    | some found => rfl

lemma missing?_shift (eof : Token) (ls : List RawLine) :
    missing? (eof.shift d) (ls.map (RawLine.shift d)) =
      (missing? eof ls).map (MissingHeader.shift d) := by
  rw [missing?, missing?, kindBehindTags_shift, firstToken_shift]
  split <;> rfl

lemma takeHeading_shift (items : List Item) :
    takeHeading (items.map (Item.shift d)) =
      ((takeHeading items).1.map (Heading.shift d), (takeHeading items).2.map (Item.shift d)) := by
  rw [takeHeading, takeHeading, Heading.take?_shift]
  rcases Heading.take? items with _ | ⟨h, below⟩
  · rfl
  · have kind : (h.shift d).kind = h.kind := rfl
    by_cases feature : h.kind = .header .feature <;> simp [kind, feature]

lemma anchorOf_shift (eof : Mark) (junk : List Line) (items : List Item) :
    anchorOf (eof.shift d) (junk.map (Line.shift d)) (items.map (Item.shift d)) =
      (anchorOf eof junk items).shift d := by
  rw [anchorOf, anchorOf, List.getLast?_map]
  cases junk.getLast? with
  | none => exact Item.startOf_shift d eof items
  | some l => exact l.stop_shift d

lemma take_shift (eof : Token) (ls : List RawLine) :
    take (eof.shift d) (ls.map (RawLine.shift d)) =
      ((take eof ls).1.shift d, (take eof ls).2.map (Item.shift d)) := by
  have items (below : List RawLine) : Item.ofLines none (below.map (RawLine.shift d)) =
      (Item.ofLines none below).map (Item.shift d) := Item.ofLines_shift d none below
  simp only [take, skipJunk_shift, items, takeHeading_shift, missing?_shift, Token.start_shift,
    anchorOf_shift]
  rfl

end Opening

namespace Feature

lemma ofLines_shift (eof : Token) (ls : List RawLine) :
    ofLines (eof.shift d) (ls.map (RawLine.shift d)) = (ofLines eof ls).shift d := by
  simp only [ofLines, Opening.take_shift, Token.start_shift, Background.take_shift,
    Item.startOf_shift, Content.ofItems_shift]
  rfl

end Feature

lemma Scenarios.tree_shift (s : Scenarios) : (s.shift d).tree = s.tree.shift d :=
  sectionTree_shift d .scenarios s.anchor (Scenario.tree_shift d) s.entries

lemma Background.tree_shift (b : Background) : (b.shift d).tree = b.tree.shift d := by
  simp [tree, shift, Heading.trees_shift, Heading.head_shift, Steps.tree_shift]

lemma Background.trees_shift (b : Option Background) :
    (b.map (shift d)).toList.map tree = (b.toList.map tree).map (Tree.shift d) := by
  cases b <;> simp [tree_shift]

lemma BusinessRule.tree_shift (r : BusinessRule) : (r.shift d).tree = r.tree.shift d := by
  have background := Background.trees_shift d r.background
  simp [tree, shift, Heading.trees_shift, Heading.head_shift, background, Scenarios.tree_shift]

lemma Content.tree_shift (anchor : Mark) (c : Content) :
    (c.shift d).tree (anchor.shift d) = (c.tree anchor).shift d := by
  cases c with
  | scenarios s => exact s.tree_shift d
  | rules es => exact sectionTree_shift d .businessRules anchor (BusinessRule.tree_shift d) es

lemma Opening.headingTrees_shift (o : Opening) :
    (o.shift d).headingTrees = o.headingTrees.map (Tree.shift d) := by
  obtain ⟨missing, junk, heading, anchor⟩ := o
  cases heading with
  | none => simp [shift, headingTrees]
  | some h => exact h.trees_shift d

lemma Feature.tree_shift (f : Feature) : (f.shift d).tree = f.tree.shift d := by
  have background := Background.trees_shift d f.background
  have body : (f.shift d).bodyTree = f.bodyTree.shift d := by
    simp [bodyTree, shift, background, Content.tree_shift]
  have junk : (f.shift d).opening.junk.flatMap Line.tokenTrees =
      (f.opening.junk.flatMap Line.tokenTrees).map (Tree.shift d) :=
    Line.flatMap_tokenTrees_shift d f.opening.junk
  have heading : (f.shift d).opening.headingTrees = f.opening.headingTrees.map (Tree.shift d) :=
    Opening.headingTrees_shift d f.opening
  have missing : (f.shift d).opening.missing.isSome = f.opening.missing.isSome := Option.isSome_map
  rw [tree, tree, body, junk, heading, missing]
  simp [shift, Opening.shift]

end FeatureFile
