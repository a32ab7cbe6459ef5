import FeatureFile.Document.Feature
import FeatureFile.Proofs.Alike.Items

namespace FeatureFile

open Item (Reads)

inductive Entry.Alike {α β : Type} (L : Likeness) (R : α → β → Prop) : Entry α → Entry β → Prop
  | placed {a : α} {b : β} : R a b → Alike L R (.placed a) (.placed b)
  | stray {i j : Item} : i.Alike L j → Alike L R (.stray i) (.stray j)

structure Step.Alike (L : Likeness) (s t : Step) : Prop where
  line : s.line.Alike L t.line
  block : Option.Rel (Block.Alike L) s.block t.block
  rows : List.Forall₂ (Line.Alike L) s.rows t.rows

structure Steps.Alike (L : Likeness) (s t : Steps) : Prop where
  anchor : L.mark s.anchor t.anchor
  entries : List.Forall₂ (Entry.Alike L (Step.Alike L)) s.entries t.entries

structure Heading.Alike (L : Likeness) (h h' : Heading) : Prop where
  tags : List.Forall₂ (Line.Alike L) h.tags h'.tags
  header : h.header.Alike L h'.header
  description : List.Forall₂ (Line.Alike L) h.description h'.description

structure Examples.Alike (L : Likeness) (e e' : Examples) : Prop where
  heading : e.heading.Alike L e'.heading
  rows : List.Forall₂ (Line.Alike L) e.rows e'.rows

structure Scenario.Alike (L : Likeness) (s s' : Scenario) : Prop where
  heading : s.heading.Alike L s'.heading
  steps : s.steps.Alike L s'.steps
  examples : List.Forall₂ (Examples.Alike L) s.examples s'.examples

structure Scenarios.Alike (L : Likeness) (s s' : Scenarios) : Prop where
  anchor : L.mark s.anchor s'.anchor
  entries : List.Forall₂ (Entry.Alike L (Scenario.Alike L)) s.entries s'.entries

structure Background.Alike (L : Likeness) (b b' : Background) : Prop where
  heading : b.heading.Alike L b'.heading
  steps : b.steps.Alike L b'.steps

structure BusinessRule.Alike (L : Likeness) (r r' : BusinessRule) : Prop where
  heading : r.heading.Alike L r'.heading
  background : Option.Rel (Background.Alike L) r.background r'.background
  scenarios : r.scenarios.Alike L r'.scenarios

inductive Content.Alike (L : Likeness) : Content → Content → Prop
  | scenarios {s s' : Scenarios} : s.Alike L s' → Alike L (.scenarios s) (.scenarios s')
  | rules {es es' : List (Entry BusinessRule)} :
      List.Forall₂ (Entry.Alike L (BusinessRule.Alike L)) es es' → Alike L (.rules es) (.rules es')

structure MissingHeader.Alike (L : Likeness) (m m' : MissingHeader) : Prop where
  found : m.found = m'.found
  met : L.token m.met m'.met

structure Opening.Alike (L : Likeness) (o o' : Opening) : Prop where
  missing : Option.Rel (MissingHeader.Alike L) o.missing o'.missing
  junk : List.Forall₂ (Line.Alike L) o.junk o'.junk
  heading : Option.Rel (Heading.Alike L) o.heading o'.heading
  anchor : L.mark o.anchor o'.anchor

structure Feature.Alike (L : Likeness) (f f' : Feature) : Prop where
  opening : f.opening.Alike L f'.opening
  anchor : L.mark f.anchor f'.anchor
  background : Option.Rel (Background.Alike L) f.background f'.background
  content : f.content.Alike L f'.content

variable {L : Likeness} {items items' : List Item} {eof eof' : Mark}

namespace Step

lemma alike_takeBlock (h : List.Forall₂ (Item.Alike L) items items') :
    Reads L (Option.Rel (Block.Alike L)) (takeBlock items) (takeBlock items') := by
  cases h with
  | nil => exact ⟨.none, .nil⟩
  | cons first rest =>
    cases first with
    | line l => exact ⟨.none, .cons (.line l) rest⟩
    | block b => exact ⟨.some b, rest⟩

lemma alike_take {l l' : Line} (line : l.Alike L l')
    (h : List.Forall₂ (Item.Alike L) items items') :
    Reads L (Alike L) (take l items) (take l' items') := by
  have block := alike_takeBlock h
  have rows := Item.alike_takeLines (· = .pipe) block.rest
  exact ⟨⟨line, block.value, rows.value⟩, rows.rest⟩

end Step

namespace Steps

lemma alike_entriesOf (h : List.Forall₂ (Item.Alike L) items items') :
    List.Forall₂ (Entry.Alike L (Step.Alike L)) (entriesOf items) (entriesOf items') := by
  induction items using entriesOf.induct generalizing items' with
  | case1 =>
    cases h
    simp [entriesOf]
  | case2 b rest ih =>
    obtain _ | ⟨_ | block, below⟩ := h
    simpa [entriesOf] using ⟨.stray (.block block), ih below⟩
  | case3 l rest step ih =>
    obtain _ | ⟨line | _, below⟩ := h
    have here := Step.alike_take line below
    rw [entriesOf, entriesOf, if_pos step, if_pos (line.kind ▸ step)]
    exact .cons (.placed here.value) (ih here.rest)
  | case4 l rest other ih =>
    obtain _ | ⟨line | _, below⟩ := h
    rw [entriesOf, entriesOf, if_neg other, if_neg (line.kind ▸ other)]
    exact .cons (.stray (.line line)) (ih below)

lemma alike_take {anchor anchor' : Mark} (start : L.mark anchor anchor')
    (h : List.Forall₂ (Item.Alike L) items items') :
    Reads L (Alike L) (take anchor items) (take anchor' items') := by
  have same (i j : Item) (here : i.Alike L j) : i.kind.isBody = j.kind.isBody :=
    congrArg TokenKind.isBody here.kind
  exact ⟨⟨start, alike_entriesOf (h.takeWhile same)⟩, h.dropWhile same⟩

end Steps

namespace Heading

lemma Alike.kind {h h' : Heading} (alike : Alike L h h') : h.kind = h'.kind :=
  alike.header.kind

lemma Alike.head {h h' : Heading} (alike : Alike L h h') : L.token h.head h'.head := by
  have tags := alike.tags
  rw [Heading.head, Heading.head]
  generalize h.tags = ls at tags
  generalize h'.tags = ls' at tags
  cases tags with
  | nil => exact alike.header.head
  | cons first _ => exact first.head

lemma alike_take? (h : List.Forall₂ (Item.Alike L) items items') :
    Option.Rel (Reads L (Alike L)) (take? items) (take? items') := by
  have tags := Item.alike_takeLines (· = .atSign) h
  rw [take?, take?]
  generalize Item.takeLines (· = .atSign) items = p at tags
  generalize Item.takeLines (· = .atSign) items' = q at tags
  obtain ⟨ls, below⟩ := p
  obtain ⟨ls', below'⟩ := q
  obtain ⟨front, rest⟩ := tags
  cases rest with
  | nil => exact .none
  | cons first rest =>
    cases first with
    | block b => exact .none
    | line l =>
      dsimp only
      rw [← l.kind]
      split
      · have text := Item.alike_takeLines TokenKind.isProse rest
        exact .some ⟨⟨front, l, text.value⟩, text.rest⟩
      · exact .none

lemma alike_takeSection {α : Type} {R : α → α → Prop} {wanted : TokenKind → Bool}
    {ofHeading ofHeading' : Heading → List Item → α × List Item}
    (each : ∀ {h h' : Heading} {below below' : List Item}, h.Alike L h' →
      List.Forall₂ (Item.Alike L) below below' →
      Reads L R (ofHeading h below) (ofHeading' h' below'))
    (h : List.Forall₂ (Item.Alike L) items items') :
    Option.Rel (Reads L R) (takeSection wanted ofHeading items)
      (takeSection wanted ofHeading' items') := by
  have heading := alike_take? h
  rw [takeSection, takeSection]
  generalize take? items = a at heading
  generalize take? items' = b at heading
  cases heading with
  | none => exact .none
  | some here =>
    dsimp only
    rw [← here.value.kind]
    split
    · exact .some (each here.value here.rest)
    · exact .none

end Heading

namespace Examples

lemma alike_take? (h : List.Forall₂ (Item.Alike L) items items') :
    Option.Rel (Reads L (Alike L)) (take? items) (take? items') :=
  Heading.alike_takeSection (fun heading below =>
    have rows := Item.alike_takeLines (· = .pipe) below
    ⟨⟨heading, rows.value⟩, rows.rest⟩) h

lemma alike_takeAll (h : List.Forall₂ (Item.Alike L) items items') :
    Reads L (List.Forall₂ (Alike L)) (takeAll items) (takeAll items') := by
  induction items using takeAll.induct generalizing items' with
  | case1 items found =>
    have here := alike_take? h
    rw [found] at here
    generalize found' : take? items' = b at here
    cases here with
    | none =>
      rw [takeAll_of_none found, takeAll_of_none found']
      exact ⟨.nil, h⟩
  | case2 items e rest found ih =>
    have here := alike_take? h
    rw [found] at here
    generalize found' : take? items' = b at here
    cases here with
    | some here =>
      rw [takeAll_of_some found, takeAll_of_some found']
      exact ⟨.cons here.value (ih here.rest).value, (ih here.rest).rest⟩

end Examples

namespace Scenario

lemma alike_ofHeading {h h' : Heading} (stop : L.mark eof eof') (heading : h.Alike L h')
    (below : List.Forall₂ (Item.Alike L) items items') :
    Reads L (Alike L) (ofHeading eof h items) (ofHeading eof' h' items') := by
  have steps := Steps.alike_take (Item.alike_startOf stop below) below
  have examples := Examples.alike_takeAll steps.rest
  exact ⟨⟨heading, steps.value, examples.value⟩, examples.rest⟩

lemma alike_take? (stop : L.mark eof eof') (h : List.Forall₂ (Item.Alike L) items items') :
    Option.Rel (Reads L (Alike L)) (take? eof items) (take? eof' items') :=
  Heading.alike_takeSection (alike_ofHeading stop) h

end Scenario

namespace Scenarios

lemma alike_entriesOf (stop : L.mark eof eof') (h : List.Forall₂ (Item.Alike L) items items') :
    List.Forall₂ (Entry.Alike L (Scenario.Alike L)) (entriesOf eof items)
      (entriesOf eof' items') := by
  induction items using entriesOf.induct eof generalizing items' with
  | case1 =>
    cases h
    simp [entriesOf]
  | case2 i items s rest found ih =>
    obtain _ | ⟨first, below⟩ := h
    have here := Scenario.alike_take? stop (.cons first below)
    rw [found] at here
    generalize found' : Scenario.take? eof' _ = b at here
    cases here with
    | some here =>
      rw [entriesOf_of_some found, entriesOf_of_some found']
      exact .cons (.placed here.value) (ih here.rest)
  | case3 i items found ih =>
    obtain _ | ⟨first, below⟩ := h
    have here := Scenario.alike_take? stop (.cons first below)
    rw [found] at here
    generalize found' : Scenario.take? eof' _ = b at here
    cases here with
    | none =>
      rw [entriesOf_of_none found, entriesOf_of_none found']
      exact .cons (.stray first) (ih below)

lemma alike_ofItems (stop : L.mark eof eof') (h : List.Forall₂ (Item.Alike L) items items') :
    Alike L (ofItems eof items) (ofItems eof' items') :=
  ⟨Item.alike_startOf stop h, alike_entriesOf stop h⟩

end Scenarios

lemma Background.alike_take (stop : L.mark eof eof')
    (h : List.Forall₂ (Item.Alike L) items items') :
    Reads L (Option.Rel (Alike L)) (take eof items) (take eof' items') := by
  cases h with
  | nil => exact ⟨.none, .nil⟩
  | cons first rest =>
    cases first with
    | block b => exact ⟨.none, .cons (.block b) rest⟩
    | line l =>
      rw [take, take, ← l.kind]
      split
      · have text := Item.alike_takeLines TokenKind.isProse rest
        have steps := Steps.alike_take (Item.alike_startOf stop text.rest) text.rest
        exact ⟨.some ⟨⟨.nil, l, text.value⟩, steps.value⟩, steps.rest⟩
      · exact ⟨.none, .cons (.line l) rest⟩

namespace BusinessRule

lemma startsAt_eq (h : List.Forall₂ (Item.Alike L) items items') :
    startsAt items = startsAt items' := by
  have heading := Heading.alike_take? h
  rw [startsAt, startsAt]
  generalize Heading.take? items = a at heading
  generalize Heading.take? items' = b at heading
  cases heading with
  | none => rfl
  | some here => exact congrArg (decide <| · = TokenKind.header .rule) here.value.kind

lemma alike_untilNext (h : List.Forall₂ (Item.Alike L) items items') :
    Reads L (List.Forall₂ (Item.Alike L)) (untilNext items) (untilNext items') := by
  induction h with
  | nil => exact ⟨.nil, .nil⟩
  | cons first rest ih =>
    rw [untilNext, untilNext, startsAt_eq (.cons first rest)]
    split
    · exact ⟨.nil, .cons first rest⟩
    · exact ⟨.cons first ih.value, ih.rest⟩

lemma alike_ofHeading {h h' : Heading} (stop : L.mark eof eof') (heading : h.Alike L h')
    (below : List.Forall₂ (Item.Alike L) items items') :
    Reads L (Alike L) (ofHeading eof h items) (ofHeading eof' h' items') := by
  have background := Background.alike_take stop below
  have own := alike_untilNext background.rest
  have scenarios := Scenarios.alike_ofItems (Item.alike_startOf stop own.rest) own.value
  exact ⟨⟨heading, background.value, scenarios⟩, own.rest⟩

lemma alike_take? (stop : L.mark eof eof') (h : List.Forall₂ (Item.Alike L) items items') :
    Option.Rel (Reads L (Alike L)) (take? eof items) (take? eof' items') :=
  Heading.alike_takeSection (alike_ofHeading stop) h

lemma all_atSign_eq (h : List.Forall₂ (Item.Alike L) items items') :
    items.all (·.kind = .atSign) = items'.all (·.kind = .atSign) :=
  h.all_eq fun _ _ item => congrArg (decide <| · = TokenKind.atSign) item.kind

lemma alike_entriesOf (stop : L.mark eof eof') (h : List.Forall₂ (Item.Alike L) items items') :
    List.Forall₂ (Entry.Alike L (Alike L)) (entriesOf eof items) (entriesOf eof' items') := by
  induction items using entriesOf.induct eof generalizing items' with
  | case1 =>
    cases h
    simp [entriesOf]
  | case2 i items r rest found ih =>
    have here := alike_take? stop h
    rw [found] at here
    generalize found' : take? eof' items' = b at here
    cases here with
    | some here =>
      rw [entriesOf_of_some found, entriesOf_of_some found']
      exact .cons (.placed here.value) (ih here.rest)
  | case3 i items found tags =>
    obtain _ | ⟨first, below⟩ := h
    have here := alike_take? stop (.cons first below)
    rw [found] at here
    generalize found' : take? eof' _ = b at here
    cases here with
    | none =>
      rw [entriesOf_of_none found, entriesOf_of_none found', if_pos tags,
        if_pos ((all_atSign_eq (.cons first below)).symm.trans tags)]
      exact .nil
  | case4 i items found other ih =>
    obtain _ | ⟨first, below⟩ := h
    have here := alike_take? stop (.cons first below)
    rw [found] at here
    generalize found' : take? eof' _ = b at here
    cases here with
    | none =>
      rw [entriesOf_of_none found, entriesOf_of_none found', if_neg other,
        if_neg (all_atSign_eq (.cons first below) ▸ other)]
      exact .cons (.stray first) (ih below)

end BusinessRule

lemma Content.alike_ofItems (stop : L.mark eof eof')
    (h : List.Forall₂ (Item.Alike L) items items') :
    Alike L (ofItems eof items) (ofItems eof' items') := by
  rw [ofItems, ofItems, BusinessRule.startsAt_eq h]
  split
  · exact .rules (BusinessRule.alike_entriesOf stop h)
  · exact .scenarios (Scenarios.alike_ofItems stop h)

end FeatureFile
