import FeatureFile.Proofs.Document.Flat

namespace FeatureFile

inductive Title where
  | heading (h : Heading)
  | step (s : Step)

def Entry.parts {α β : Type} (member : α → List β) : Entry α → List β
  | placed a => member a
  | stray _ => []

def Steps.titles (s : Steps) : List Title :=
  s.entries.flatMap (Entry.parts fun s => [.step s])

def Examples.titles (e : Examples) : List Title :=
  [.heading e.heading]

def Scenario.titles (s : Scenario) : List Title :=
  .heading s.heading :: (s.steps.titles ++ s.examples.flatMap Examples.titles)

def Scenarios.titles (s : Scenarios) : List Title :=
  s.entries.flatMap (Entry.parts Scenario.titles)

def Background.titles (b : Background) : List Title :=
  .heading b.heading :: b.steps.titles

def BusinessRule.titles (r : BusinessRule) : List Title :=
  .heading r.heading :: (r.background.toList.flatMap Background.titles ++ r.scenarios.titles)

def Content.titles : Content → List Title
  | scenarios s => s.titles
  | rules es => es.flatMap (Entry.parts BusinessRule.titles)

def Feature.innerTitles (f : Feature) : List Title :=
  f.background.toList.flatMap Background.titles ++ f.content.titles

namespace Title

def StandsIn (items : List Item) : Title → Prop
  | heading h => ∃ above below, items = above ++ .line h.header :: below ∧
      (Item.takeLines TokenKind.isProse below).1 = h.description
  | step s => .line s.line ∈ items

variable {a : Title} {items rest : List Item}

lemma StandsIn.append_left (h : a.StandsIn rest) (front : List Item) : a.StandsIn (front ++ rest) := by
  cases a with
  | step s => exact List.mem_append_right front h
  | heading h' =>
    obtain ⟨above, below, rfl, text⟩ := h
    exact ⟨front ++ above, below, (List.append_assoc _ _ _).symm, text⟩

lemma StandsIn.append_right (h : a.StandsIn items)
    (stop : ∀ l below, rest = .line l :: below → l.kind.isProse = false) :
    a.StandsIn (items ++ rest) := by
  cases a with
  | step s => exact List.mem_append_left rest h
  | heading h' =>
    obtain ⟨above, below, rfl, text⟩ := h
    refine ⟨above, below ++ rest, by simp, ?_⟩
    rw [Item.takeLines_append_of_stop stop, text]

lemma StandsIn.heading_of_take? {h : Heading} (found : Heading.take? items = some (h, rest)) :
    (heading h).StandsIn items := by
  obtain ⟨below, tags, -, text⟩ := Heading.take?_eq_some.mp found
  have whole := Item.map_line_takeLines (· = .atSign) items
  rw [tags] at whole
  exact ⟨h.tags.map .line, below, whole.symm, congrArg Prod.fst text⟩

lemma StandsIn.behind_heading {h : Heading} (found : Heading.take? items = some (h, rest))
    (below : a.StandsIn rest) : a.StandsIn items :=
  Heading.items_of_take? found ▸ below.append_left _

lemma StandsIn.of_takeSection {α : Type} {wanted : TokenKind → Bool}
    {ofHeading : Heading → List Item → α × List Item} {titles : α → List Title} {s : α}
    (own : ∀ h below, ∀ a ∈ titles (ofHeading h below).1, a = .heading h ∨ a.StandsIn below)
    (found : Heading.takeSection wanted ofHeading items = some (s, rest)) :
    ∀ a ∈ titles s, a.StandsIn items := by
  obtain ⟨h, below, heading, -, whole⟩ := Heading.takeSection_eq_some.mp found
  obtain ⟨rfl, -⟩ := Prod.mk.inj whole
  intro a ha
  rcases own h below a ha with rfl | inner
  · exact .heading_of_take? heading
  · exact inner.behind_heading heading

end Title

open Title (StandsIn)

variable {items rest : List Item} {eof : Mark}

lemma Steps.standsIn_entriesOf (items : List Item) :
    ∀ a ∈ (entriesOf items).flatMap (Entry.parts fun s => [Title.step s]), a.StandsIn items := by
  induction items using entriesOf.induct with
  | case1 => simp [entriesOf]
  | case2 b rest ih =>
    rw [entriesOf]
    exact fun a ha => (ih a ha).append_left [.block b]
  | case3 l rest step ih =>
    rw [entriesOf, if_pos step, List.flatMap_cons]
    refine List.forall_mem_cons.mpr ⟨List.mem_cons_self, fun a ha => ?_⟩
    exact Step.items_take l rest ▸ (ih a ha).append_left _
  | case4 l rest other ih =>
    rw [entriesOf, if_neg other]
    exact fun a ha => (ih a ha).append_left [.line l]

lemma Steps.standsIn_take (anchor : Mark) (items : List Item) :
    ∀ a ∈ (take anchor items).1.titles, a.StandsIn items := by
  intro a ha
  have inner := standsIn_entriesOf _ a ha
  obtain ⟨e, -, he⟩ := List.mem_flatMap.mp ha
  cases e with
  | stray i => cases he
  | placed s =>
    obtain rfl := List.mem_singleton.mp he
    exact (List.takeWhile_sublist _).subset inner

lemma Examples.standsIn_takeAll (items : List Item) :
    ∀ a ∈ (takeAll items).1.flatMap titles, a.StandsIn items := by
  induction items using takeAll.induct with
  | case1 items found => simp [takeAll_of_none found]
  | case2 items e rest found ih =>
    obtain ⟨below, heading, -, -⟩ := take?_eq_some.mp found
    rw [takeAll_of_some found, List.flatMap_cons]
    refine List.forall_mem_cons.mpr ⟨.heading_of_take? heading, fun a ha => ?_⟩
    exact items_of_take? found ▸ (ih a ha).append_left _

lemma Scenario.standsIn_ofHeading (eof : Mark) (h : Heading) (items : List Item) :
    ∀ a ∈ (ofHeading eof h items).1.steps.titles ++
      (ofHeading eof h items).1.examples.flatMap Examples.titles, a.StandsIn items := by
  refine List.forall_mem_append.mpr ⟨Steps.standsIn_take _ items, fun a ha => ?_⟩
  have below := Examples.standsIn_takeAll _ a ha
  exact Steps.items_take (Item.startOf eof items) items ▸ below.append_left _

lemma Scenario.standsIn_take? {s : Scenario} (found : take? eof items = some (s, rest)) :
    ∀ a ∈ s.titles, a.StandsIn items := by
  refine StandsIn.of_takeSection (fun h below => ?_) found
  exact List.forall_mem_cons.mpr ⟨.inl rfl, fun a ha => .inr (standsIn_ofHeading eof h below a ha)⟩

lemma Scenarios.standsIn_entriesOf (eof : Mark) (items : List Item) :
    ∀ a ∈ (entriesOf eof items).flatMap (Entry.parts Scenario.titles), a.StandsIn items := by
  induction items using entriesOf.induct eof with
  | case1 => simp [entriesOf]
  | case2 i items s rest found ih =>
    rw [entriesOf_of_some found, List.flatMap_cons]
    refine List.forall_mem_append.mpr ⟨Scenario.standsIn_take? found, fun a ha => ?_⟩
    exact Scenario.items_of_take? found ▸ (ih a ha).append_left _
  | case3 i items found ih =>
    rw [entriesOf_of_none found, List.flatMap_cons]
    exact fun a ha => (ih a ha).append_left [i]

lemma Background.standsIn_take (eof : Mark) (items : List Item) :
    ∀ a ∈ (take eof items).1.toList.flatMap titles, a.StandsIn items := by
  unfold take
  split
  case h_2 => simp
  case h_1 l rest =>
    split
    case isFalse => simp
    case isTrue =>
      simp only [Option.toList_some, List.flatMap_singleton]
      refine List.forall_mem_cons.mpr ⟨⟨[], rest, rfl, rfl⟩, fun a ha => ?_⟩
      have below := Steps.standsIn_take _ _ a ha
      have text := Item.map_line_takeLines TokenKind.isProse rest
      exact (text ▸ below.append_left _).append_left [.line l]

namespace BusinessRule

lemma standsIn_ofHeading (eof : Mark) (h : Heading) (items : List Item) :
    ∀ a ∈ (ofHeading eof h items).1.background.toList.flatMap Background.titles ++
      (ofHeading eof h items).1.scenarios.titles, a.StandsIn items := by
  refine List.forall_mem_append.mpr ⟨Background.standsIn_take eof items, fun a ha => ?_⟩
  have own : a.StandsIn (untilNext (Background.take eof items).2).1 :=
    Scenarios.standsIn_entriesOf _ _ a ha
  -- Where the next rule begins, no text goes on.
  have seam := isSeam_of_startsAt (startsAt_untilNext (Background.take eof items).2)
  have below := own.append_right (seam.stop fun _ => TokenKind.isBody_of_isProse)
  rw [append_untilNext] at below
  exact Background.items_take eof items ▸ below.append_left _

lemma standsIn_take? {r : BusinessRule} (found : take? eof items = some (r, rest)) :
    ∀ a ∈ r.titles, a.StandsIn items := by
  refine StandsIn.of_takeSection (fun h below => ?_) found
  exact List.forall_mem_cons.mpr ⟨.inl rfl, fun a ha => .inr (standsIn_ofHeading eof h below a ha)⟩

lemma standsIn_entriesOf (eof : Mark) (items : List Item) :
    ∀ a ∈ (entriesOf eof items).flatMap (Entry.parts titles), a.StandsIn items := by
  induction items using entriesOf.induct eof with
  | case1 => simp [entriesOf]
  | case2 i items r rest found ih =>
    rw [entriesOf_of_some found, List.flatMap_cons]
    refine List.forall_mem_append.mpr ⟨standsIn_take? found, fun a ha => ?_⟩
    exact items_of_take? found ▸ (ih a ha).append_left _
  | case3 i items found tags => simp [entriesOf_of_none found, tags]
  | case4 i items found more ih =>
    rw [entriesOf_of_none found, if_neg more, List.flatMap_cons]
    exact fun a ha => (ih a ha).append_left [i]

end BusinessRule

lemma Content.standsIn_ofItems (eof : Mark) (items : List Item) :
    ∀ a ∈ (ofItems eof items).titles, a.StandsIn items := by
  rw [ofItems]
  split
  · exact BusinessRule.standsIn_entriesOf eof items
  · exact Scenarios.standsIn_entriesOf eof items

namespace Feature

lemma standsIn_body (eof : Mark) (items : List Item) :
    ∀ a ∈ (Background.take eof items).1.toList.flatMap Background.titles ++
      (Content.ofItems eof (Background.take eof items).2).titles, a.StandsIn items := by
  refine List.forall_mem_append.mpr ⟨Background.standsIn_take eof items, fun a ha => ?_⟩
  have below := Content.standsIn_ofItems eof _ a ha
  exact Background.items_take eof items ▸ below.append_left _

variable {eof : Token} {ls : List RawLine}

lemma standsIn_innerTitles :
    ∀ a ∈ (ofLines eof ls).innerTitles, a.StandsIn (ofLines eof ls).items := by
  intro a ha
  rw [items_ofLines, ← Opening.items_takeHeading (Item.ofLines none (Opening.skipJunk ls).2)]
  exact StandsIn.append_left (standsIn_body eof.start _ a ha) _

lemma standsIn_heading {h : Heading} (found : h ∈ (ofLines eof ls).opening.heading) :
    (Title.heading h).StandsIn (ofLines eof ls).items := by
  rw [items_ofLines]
  have taken : (Opening.takeHeading (Item.ofLines none (Opening.skipJunk ls).2)).1 = some h := found
  rw [Opening.takeHeading] at taken
  split at taken
  next h' below heading =>
    split at taken
    next =>
      obtain rfl := Option.some.inj taken
      exact .heading_of_take? heading
    next => cases taken
  next => cases taken

end Feature

end FeatureFile
