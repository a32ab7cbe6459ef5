import FeatureFile.Proofs.Tree.Bounds

namespace FeatureFile

open FeatureFile.Tree (leaf node built boundsOf bounds_node rises_node leavesOf IsFilled)

variable {P : Nat → Prop} {a b : Nat} {eof : Mark} {items rest : List Item}

namespace Item

def boundsOf (items : List Item) : List Nat :=
  Token.boundsOf (items.flatMap tokens)

@[simp] lemma boundsOf_nil : boundsOf [] = [] :=
  rfl

@[simp] lemma boundsOf_cons (i : Item) (items : List Item) :
    boundsOf (i :: items) = Token.boundsOf i.tokens ++ boundsOf items :=
  Token.boundsOf_append _ _

@[simp] lemma boundsOf_append (items rest : List Item) :
    boundsOf (items ++ rest) = boundsOf items ++ boundsOf rest := by
  simp [boundsOf]

@[simp] lemma boundsOf_map_line (ls : List Line) :
    boundsOf (ls.map line) = Token.boundsOf (ls.flatMap Line.tokens) := by
  rw [boundsOf, flatMap_tokens_map_line]

lemma head?_boundsOf (i : Item) (items : List Item) :
    ∃ ns, boundsOf (i :: items) = i.head.start.offset :: ns := by
  cases i with
  | line l => exact ⟨_, rfl⟩
  | block b => exact ⟨_, rfl⟩

lemma rises_startOf (stop : P eof.offset) (h : Rises P a (boundsOf items) eof.offset) :
    Rises P a ((startOf eof items).offset :: boundsOf items) eof.offset := by
  cases items with
  | nil => exact .cons h.le stop (.nil (Nat.le_refl _))
  | cons i rest =>
    obtain ⟨ns, whole⟩ := head?_boundsOf i rest
    rw [whole] at h ⊢
    exact h.double

lemma rises_cut {ns : List Nat} (stop : P eof.offset)
    (h : Rises P a (ns ++ boundsOf rest) eof.offset) :
    Rises P a ns (startOf eof rest).offset ∧ P (startOf eof rest).offset ∧
      Rises P (startOf eof rest).offset (boundsOf rest) eof.offset := by
  obtain ⟨b, front, back⟩ := h.exists_of_append
  obtain _ | ⟨below, holds, behind⟩ := rises_startOf stop back
  exact ⟨by simpa using front.append (.nil below), holds, behind⟩

end Item

lemma Block.rises_trees {block : Option Block}
    (h : Rises P a (Item.boundsOf (block.toList.map .block)) b) :
    Rises P a (boundsOf (block.toList.map tree)) b := by
  cases block with
  | none => simpa using h
  | some block => simpa using rises_tree (by simpa [Item.tokens] using h)

lemma Step.rises_tree {s : Step} (h : Rises P a (Item.boundsOf s.items) b) :
    Rises P a s.tree.bounds b := by
  rw [items, Item.boundsOf_cons, Item.boundsOf_append, Item.boundsOf_map_line] at h
  obtain ⟨c, line, below⟩ := h.exists_of_append
  obtain ⟨d, block, rows⟩ := below.exists_of_append
  have name := Line.rises_nameTree
    (line.sublist (Token.boundsOf_sublist (List.sublist_append_left _ _)))
  rw [tree, built, bounds_node (by simp)]
  simpa using name.append ((Block.rises_trees block).append (Line.rises_tableTrees rows))

namespace Entry

variable {α : Type} {member : α → Tree} {own : α → List Item}

lemma rises_trees {entries : List (Entry α)}
    (members : ∀ s c d, Rises P c (Item.boundsOf (own s)) d → Rises P c (member s).bounds d)
    (h : Rises P a (Item.boundsOf (entries.flatMap (Entry.items own))) b) :
    Rises P a (boundsOf (entries.flatMap (trees member))) b := by
  induction entries generalizing a with
  | nil => simpa using h
  | cons e entries ih =>
    rw [List.flatMap_cons, Item.boundsOf_append] at h
    obtain ⟨c, first, others⟩ := h.exists_of_append
    rw [List.flatMap_cons, Tree.boundsOf_append]
    refine Rises.append ?_ (ih others)
    cases e with
    | placed s => simpa [trees] using members s _ _ first
    | stray i =>
      rw [trees, Item.trees, show IsFilled _ from .leaves i.tokens, Tree.leavesOf_map_leaf]
      simpa [Entry.items] using first

end Entry

namespace Steps

lemma rises_tree {s : Steps} (h : Rises P a (s.anchor.offset :: Item.boundsOf s.items) b) :
    Rises P a s.tree.bounds b := by
  refine rises_node (Entry.rises_trees (fun _ _ _ => Step.rises_tree) ?_)
    (h.single List.mem_cons_self)
  exact h.sublist (List.sublist_cons_self _ _)

lemma rises_take (stop : P eof.offset) (h : Rises P a (Item.boundsOf items) eof.offset) :
    Rises P a ((take (Item.startOf eof items) items).1.tree.bounds ++
      Item.boundsOf (take (Item.startOf eof items) items).2) eof.offset := by
  have started := Item.rises_startOf stop h
  have split : Item.boundsOf items = Item.boundsOf (take (Item.startOf eof items) items).1.items ++
      Item.boundsOf (take (Item.startOf eof items) items).2 := by
    rw [← Item.boundsOf_append, items_take]
  rw [split, ← List.cons_append] at started
  exact started.imp_append fun _ => rises_tree (s := (take (Item.startOf eof items) items).1)

end Steps

namespace Heading

lemma rises_trees {h : Heading} (own : Rises P a (Item.boundsOf h.items) b) :
    Rises P a (boundsOf h.trees) b := by
  rw [items, Item.boundsOf_append, Item.boundsOf_cons, Item.boundsOf_map_line,
    Item.boundsOf_map_line] at own
  obtain ⟨c, tags, below⟩ := own.exists_of_append
  obtain ⟨header, description⟩ := below.cut h.header.getLast?_boundsOf_tokens
  have line := Line.rises_headerTrees
    (header.sublist (Token.boundsOf_sublist (List.sublist_append_left _ _)))
  have text : Rises P h.header.stop.offset h.descriptionTree.bounds b := by
    refine rises_node ?_ (description.single List.mem_cons_self)
    have leaves : h.description.flatMap Line.tokenTrees =
        (h.description.flatMap Line.tokens).map leaf := by
      rw [List.map_flatMap]
      rfl
    rw [leaves, show IsFilled _ from .leaves _, Tree.leavesOf_map_leaf]
    exact description.sublist (List.sublist_cons_self _ _)
  simpa [trees] using (Line.rises_tagTrees tags).append (line.append text)

lemma rises_take? {h : Heading} (found : take? items = some (h, rest))
    (all : Rises P a (Item.boundsOf items) b) :
    Rises P a (boundsOf h.trees ++ Item.boundsOf rest) b := by
  rw [← items_of_take? found, Item.boundsOf_append] at all
  exact all.imp_append fun _ => rises_trees

lemma rises_takeSection {α : Type} {s : α} {tree : α → Tree} {wanted : TokenKind → Bool}
    {ofHeading : Heading → List Item → α × List Item}
    (inner : ∀ h below, Rises P a (boundsOf h.trees ++ Item.boundsOf below) b →
      Rises P a ((tree (ofHeading h below).1).bounds ++ Item.boundsOf (ofHeading h below).2) b)
    (found : takeSection wanted ofHeading items = some (s, rest))
    (all : Rises P a (Item.boundsOf items) b) :
    Rises P a ((tree s).bounds ++ Item.boundsOf rest) b := by
  obtain ⟨h, below, heading, -, whole⟩ := takeSection_eq_some.mp found
  have front := inner h below (rises_take? heading all)
  rwa [whole] at front

lemma trees_ne_nil (h : Heading) : h.trees ≠ [] := by
  simp [trees]

end Heading

namespace Examples

lemma rises_tree {e : Examples} (h : Rises P a (Item.boundsOf e.items) b) :
    Rises P a e.tree.bounds b := by
  rw [items, Item.boundsOf_append, Item.boundsOf_map_line] at h
  obtain ⟨c, heading, rows⟩ := h.exists_of_append
  rw [tree, bounds_node (by simp [Heading.trees_ne_nil]), Tree.boundsOf_append]
  exact (Heading.rises_trees heading).append (Line.rises_tableTrees rows)

lemma rises_trees {es : List Examples} (h : Rises P a (Item.boundsOf (es.flatMap Examples.items)) b) :
    Rises P a (boundsOf (es.map tree)) b := by
  induction es generalizing a with
  | nil => simpa using h
  | cons e es ih =>
    rw [List.flatMap_cons, Item.boundsOf_append] at h
    obtain ⟨c, first, others⟩ := h.exists_of_append
    simpa using (rises_tree first).append (ih others)

lemma rises_takeAll (h : Rises P a (Item.boundsOf items) b) :
    Rises P a (boundsOf ((takeAll items).1.map tree) ++ Item.boundsOf (takeAll items).2) b := by
  rw [← items_takeAll items, Item.boundsOf_append] at h
  exact h.imp_append fun _ => rises_trees

end Examples

namespace Scenario

lemma rises_ofHeading {h : Heading} (stop : P eof.offset)
    (all : Rises P a (boundsOf h.trees ++ Item.boundsOf items) eof.offset) :
    Rises P a ((ofHeading eof h items).1.tree.bounds ++
      Item.boundsOf (ofHeading eof h items).2) eof.offset := by
  have steps := all.append_imp fun _ => Steps.rises_take stop
  have examples := steps.append_imp fun _ own => own.append_imp fun _ => Examples.rises_takeAll
  rw [tree, bounds_node (by simp)]
  simpa [ofHeading] using examples

lemma rises_take? {s : Scenario} (stop : P eof.offset) (found : take? eof items = some (s, rest))
    (all : Rises P a (Item.boundsOf items) eof.offset) :
    Rises P a (s.tree.bounds ++ Item.boundsOf rest) eof.offset :=
  Heading.rises_takeSection (fun _ _ => rises_ofHeading stop) found all

end Scenario

namespace Scenarios

lemma rises_entriesOf (stop : P eof.offset) (h : Rises P a (Item.boundsOf items) eof.offset) :
    Rises P a (boundsOf ((entriesOf eof items).flatMap (Entry.trees Scenario.tree))) eof.offset := by
  induction items using entriesOf.induct eof generalizing a with
  | case1 => simpa [entriesOf] using h
  | case2 i items s rest found ih =>
    obtain ⟨b, here, below⟩ := (Scenario.rises_take? stop found h).exists_of_append
    rw [entriesOf_of_some found]
    simpa [Entry.trees] using here.append (ih below)
  | case3 i items found ih =>
    rw [Item.boundsOf_cons] at h
    obtain ⟨b, here, below⟩ := h.exists_of_append
    have leaves : boundsOf i.trees = Token.boundsOf i.tokens := by
      rw [Item.trees, show IsFilled _ from .leaves i.tokens, Tree.leavesOf_map_leaf]
    rw [entriesOf_of_none found, List.flatMap_cons, Entry.trees, Tree.boundsOf_append, leaves]
    exact here.append (ih below)

lemma rises_ofItems (stop : P eof.offset) (h : Rises P a (Item.boundsOf items) eof.offset) :
    Rises P a (ofItems eof items).tree.bounds eof.offset :=
  rises_node (rises_entriesOf stop h) ((Item.rises_startOf stop h).single List.mem_cons_self)

end Scenarios

namespace Background

lemma rises_take (stop : P eof.offset) (h : Rises P a (Item.boundsOf items) eof.offset) :
    Rises P a (boundsOf ((take eof items).1.toList.map tree) ++ Item.boundsOf (take eof items).2)
      eof.offset := by
  unfold take
  split
  case h_2 => simpa using h
  case h_1 l rest =>
    split
    case isFalse => simpa using h
    case isTrue =>
      have items : Heading.items ⟨[], l, (Item.takeLines TokenKind.isProse rest).1⟩ ++
          (Item.takeLines TokenKind.isProse rest).2 = .line l :: rest := by
        simp [Heading.items, Item.map_line_takeLines]
      rw [← items, Item.boundsOf_append] at h
      have heading := h.imp_append fun _ => Heading.rises_trees
      have steps := heading.append_imp fun _ => Steps.rises_take stop
      simpa [tree, built, bounds_node] using steps

end Background

namespace BusinessRule

lemma rises_untilNext (stop : P eof.offset) (h : Rises P a (Item.boundsOf items) eof.offset) :
    Rises P a ((Scenarios.ofItems (Item.startOf eof (untilNext items).2) (untilNext items).1).tree.bounds ++
      Item.boundsOf (untilNext items).2) eof.offset := by
  rw [← append_untilNext items, Item.boundsOf_append] at h
  obtain ⟨own, next, rest⟩ := Item.rises_cut stop h
  exact (Scenarios.rises_ofItems next own).append rest

lemma rises_ofHeading {h : Heading} (stop : P eof.offset)
    (all : Rises P a (boundsOf h.trees ++ Item.boundsOf items) eof.offset) :
    Rises P a ((ofHeading eof h items).1.tree.bounds ++
      Item.boundsOf (ofHeading eof h items).2) eof.offset := by
  have background := all.append_imp fun _ => Background.rises_take stop
  have scenarios := background.append_imp fun _ own => own.append_imp fun _ => rises_untilNext stop
  rw [tree, built, bounds_node (by simp)]
  simpa [ofHeading] using scenarios

lemma rises_take? {r : BusinessRule} (stop : P eof.offset) (found : take? eof items = some (r, rest))
    (all : Rises P a (Item.boundsOf items) eof.offset) :
    Rises P a (r.tree.bounds ++ Item.boundsOf rest) eof.offset :=
  Heading.rises_takeSection (fun _ _ => rises_ofHeading stop) found all

lemma rises_entriesOf (stop : P eof.offset) (start : items = [] ∨ startsAt items)
    (h : Rises P a (Item.boundsOf items) eof.offset) :
    Rises P a (boundsOf ((entriesOf eof items).flatMap (Entry.trees tree))) eof.offset := by
  refine row_induction eof (motive := fun items => ∀ a, Rises P a (Item.boundsOf items) eof.offset →
    Rises P a (boundsOf ((entriesOf eof items).flatMap (Entry.trees tree))) eof.offset)
    (fun a h => by simpa [entriesOf] using h) (fun items r rest found ih a h => ?_) start a h
  obtain ⟨b, here, below⟩ := (rises_take? stop found h).exists_of_append
  rw [entriesOf_of_some found]
  simpa [Entry.trees] using here.append (ih b below)

lemma trees_entriesOf_ne_nil (eof : Mark) (starts : startsAt items) :
    (entriesOf eof items).flatMap (Entry.trees tree) ≠ [] := by
  cases found : take? eof items with
  | none => simp [take?_eq_none.mp found] at starts
  | some front => simp [entriesOf_of_some found, Entry.trees]

end BusinessRule

lemma Content.rises_ofItems (anchor : Mark) (stop : P eof.offset)
    (h : Rises P a (Item.boundsOf items) eof.offset) :
    Rises P a ((ofItems eof items).tree anchor).bounds eof.offset := by
  rw [ofItems]
  split
  case isFalse => exact Scenarios.rises_ofItems stop h
  case isTrue starts =>
    -- There is a first rule, so the anchor of the rules does not count.
    rw [tree, sectionTree, bounds_node (BusinessRule.trees_entriesOf_ne_nil eof starts)]
    exact BusinessRule.rises_entriesOf stop (.inr starts) h

namespace Opening

lemma boundsOf_junk (junk : List Line) :
    boundsOf (junk.flatMap Line.tokenTrees) = Token.boundsOf (junk.flatMap Line.tokens) := by
  have leaves : junk.flatMap Line.tokenTrees = (junk.flatMap Line.tokens).map leaf := by
    rw [List.map_flatMap]
    rfl
  rw [leaves, show IsFilled _ from .leaves _, Tree.leavesOf_map_leaf]

lemma rises_anchorOf {junk : List Line} (stop : P eof.offset)
    (h : Rises P a (Token.boundsOf (junk.flatMap Line.tokens) ++ Item.boundsOf items) eof.offset) :
    Rises P a (Token.boundsOf (junk.flatMap Line.tokens) ++
      (anchorOf eof junk items).offset :: Item.boundsOf items) eof.offset := by
  rw [anchorOf]
  split
  case h_1 l last =>
    obtain ⟨front, rfl⟩ := List.getLast?_eq_some_iff.mp last
    have stop : (Token.boundsOf ((front ++ [l]).flatMap Line.tokens)).getLast? =
        some l.stop.offset := by
      simp [List.getLast?_append, l.getLast?_boundsOf_tokens]
    obtain ⟨skipped, below⟩ := h.cut stop
    exact skipped.append below
  case h_2 none =>
    obtain rfl := List.getLast?_eq_none_iff.mp none
    exact Item.rises_startOf stop h

lemma rises_headingTrees {o : Opening} (stop : P eof.offset) (found : takeHeading items = (o.heading, rest))
    (anchor : o.anchor = anchorOf eof o.junk items)
    (h : Rises P a (Token.boundsOf (o.junk.flatMap Line.tokens) ++ Item.boundsOf items) eof.offset) :
    Rises P a (Token.boundsOf (o.junk.flatMap Line.tokens) ++
      (boundsOf o.headingTrees ++ Item.boundsOf rest)) eof.offset := by
  have whole := items_takeHeading items
  rw [found] at whole
  rw [headingTrees]
  cases heading : o.heading with
  | some h' =>
    rw [← whole, heading] at h
    refine h.append_imp fun b own => ?_
    rw [Item.boundsOf_append] at own
    exact own.imp_append fun c inner => Heading.rises_trees (by simpa using inner)
  | none =>
    obtain rfl : rest = items := by simpa [heading] using whole
    refine (rises_anchorOf stop h).append_imp fun b own => ?_
    simpa [built, Tree.bounds_empty, anchor] using own.double

end Opening

lemma Feature.rises_tree {eof : Token} {ls : List RawLine} (stop : P eof.start.offset)
    (h : Rises P a (Token.boundsOf ((Opening.skipJunk ls).1.flatMap Line.tokens) ++
      Item.boundsOf (Item.ofLines none (Opening.skipJunk ls).2)) eof.start.offset) :
    Rises P a (ofLines eof ls).tree.bounds eof.start.offset := by
  let f := ofLines eof ls
  have opening := Opening.rises_headingTrees (o := f.opening) stop rfl rfl h
  have background := opening.append_imp fun _ own => own.append_imp fun _ => Background.rises_take stop
  have all : Rises P a (Token.boundsOf (f.opening.junk.flatMap Line.tokens) ++
      (boundsOf f.opening.headingTrees ++ (boundsOf (f.background.toList.map Background.tree) ++
        (f.content.tree f.anchor).bounds))) eof.start.offset :=
    background.append_imp fun _ own => own.append_imp fun _ own =>
      own.append_imp fun _ => Content.rises_ofItems f.anchor stop
  rw [tree, bounds_node (by simp), bodyTree]
  simpa [built, bounds_node, Opening.boundsOf_junk] using all

end FeatureFile
