import FeatureFile.Document.Tree
import FeatureFile.Proofs.Document.Items

namespace FeatureFile

open FeatureFile.Tree (leaf node built leavesOf)

namespace Tree

@[simp] lemma leaves_leaf (t : Token) : (leaf t).leaves = [t] := by
  rw [leaves]

@[simp] lemma leaves_node (rule : Rule) (anchor : Mark) (recovered : Bool) (children : List Tree) :
    (node rule anchor recovered children).leaves = leavesOf children := by
  rw [leaves]

@[simp] lemma leaves_built (rule : Rule) (anchor : Mark) (children : List Tree) :
    (built rule anchor children).leaves = leavesOf children :=
  leaves_node rule anchor false children

lemma leavesOf_eq_flatMap (ts : List Tree) : leavesOf ts = ts.flatMap leaves := by
  induction ts with
  | nil => rw [leavesOf, List.flatMap_nil]
  | cons t ts ih => rw [leavesOf, ih, List.flatMap_cons]

@[simp] lemma leavesOf_nil : leavesOf [] = [] := by
  rw [leavesOf]

@[simp] lemma leavesOf_cons (t : Tree) (ts : List Tree) :
    leavesOf (t :: ts) = t.leaves ++ leavesOf ts := by
  rw [leavesOf]

@[simp] lemma leavesOf_append (ts us : List Tree) :
    leavesOf (ts ++ us) = leavesOf ts ++ leavesOf us := by
  simp [leavesOf_eq_flatMap]

@[simp] lemma leavesOf_map_leaf (ts : List Token) : leavesOf (ts.map leaf) = ts := by
  induction ts with
  | nil => simp
  | cons t ts ih => simp [ih]

lemma leavesOf_map {α : Type} (f : α → Tree) (as : List α) :
    leavesOf (as.map f) = as.flatMap fun a => (f a).leaves := by
  rw [leavesOf_eq_flatMap, List.flatMap_map]

lemma leavesOf_flatMap {α : Type} (f : α → List Tree) (as : List α) :
    leavesOf (as.flatMap f) = as.flatMap fun a => leavesOf (f a) := by
  induction as with
  | nil => simp
  | cons a as ih => simp [ih]

end Tree

open FeatureFile.Tree

namespace Line

lemma leaves_nameChild (t : Token) : (nameChild t).leaves = [t] := by
  rw [nameChild]
  split <;> simp [parameter]

lemma keeps_nameTree (keyword : Token) (rest : List Token) :
    Keeps (nameTree keyword rest).leaves rest := by
  let shown := rest.dropWhile (·.kind.isPad)
  have shows : Keeps shown rest := .dropWhile fun _ _ => TokenKind.isTrivia_of_isPad
  have uncommented : Keeps (shown.filter (·.kind ≠ .comment)) shown := by
    refine .filter fun t _ comment => ?_
    have : t.kind = .comment := by simpa using comment
    rw [this]
    rfl
  have trimmed : Keeps (Text.dropEnd (·.kind.isPad) (shown.filter (·.kind ≠ .comment)))
      (shown.filter (·.kind ≠ .comment)) := .dropEnd fun _ _ => TokenKind.isTrivia_of_isPad
  simp only [nameTree, leaves_built, leavesOf_map, leaves_nameChild, List.flatMap_singleton']
  exact (trimmed.trans uncommented).trans shows

lemma keeps_headerTrees (l : Line) : Keeps (leavesOf l.headerTrees) (l.head :: l.tail) := by
  rw [headerTrees]
  split
  case h_1 heq => simpa [heq] using (keeps_nameTree l.head []).cons l.head
  case h_2 c rest heq =>
    split
    · simpa [heq] using ((keeps_nameTree c rest).cons c).cons l.head
    · simpa using (keeps_nameTree l.head l.tail).cons l.head

@[simp] lemma leavesOf_tokenTrees (l : Line) : leavesOf l.tokenTrees = l.tokens :=
  leavesOf_map_leaf l.tokens

end Line

namespace TagPart

def untold : Bool → List Token → List Token
  | true, t :: rest => if t.kind = .text then rest else t :: rest
  | _, ts => ts

lemma name?_append_untold (rest : List Token) : (name? rest).toList ++ untold true rest = rest := by
  cases rest with
  | nil => rfl
  | cons t rest => by_cases h : t.kind = .text <;> simp [name?, untold, Option.filter, h]

@[simp] lemma untold_false (ts : List Token) : untold false ts = ts := by
  cases ts <;> rfl

lemma untold_of_ne (signed : Bool) {t : Token} (h : t.kind ≠ .text) (rest : List Token) :
    untold signed (t :: rest) = t :: rest := by
  cases signed <;> simp [untold, h]

lemma leaves_tag (sign : Token) (name : Option Token) :
    (tag sign name).tree.leaves = sign :: name.toList := by
  cases name <;> simp [tree]

lemma keeps_ofTokens (signed : Bool) (ts : List Token) :
    Keeps (leavesOf ((ofTokens signed ts).map tree)) (untold signed ts) := by
  induction ts generalizing signed with
  | nil =>
    cases signed <;> simpa [ofTokens, untold] using Keeps.refl []
  | cons t rest ih =>
    rw [ofTokens]
    split
    case isTrue sign =>
      rw [untold_of_ne signed (by simp [sign])]
      have kept := ((Keeps.refl (name? rest).toList).append (ih true)).cons t
      rw [name?_append_untold] at kept
      simpa [leaves_tag] using kept
    case isFalse other =>
      split
      case isTrue passed =>
        by_cases text : t.kind = .text
        · -- The name behind a sign: the part of the sign has told of it.
          have signed : signed = true := by simpa [text, TokenKind.isTrivia] using passed
          simpa [signed, untold, text] using ih false
        · rw [untold_of_ne signed text]
          exact (ih false).skip (by simpa [text] using passed)
      case isFalse stray =>
        have same : untold signed (t :: rest) = t :: rest := by
          cases signed with
          | false => rfl
          | true => exact untold_of_ne true (by simp_all) rest
        rw [same]
        simpa [tree] using (ih false).cons t

end TagPart

namespace RowPart

lemma split_append (ts : List Token) : (split ts).1 ++ (split ts).2.flatten = ts := by
  induction ts with
  | nil => rfl
  | cons t rest ih => by_cases h : t.kind = .pipe <;> simp [split, h, ih]

lemma leaves_cellChild (t : Token) : (cellChild t).leaves = [t] := by
  rw [cellChild]
  split <;> simp

lemma leaves_cell (anchor : Mark) (ts : List Token) : (tree anchor (cell ts)).leaves = ts := by
  simp [tree, leavesOf_map, leaves_cellChild]

lemma leaves_loose (anchor : Mark) (t : Token) : (tree anchor (loose t)).leaves = [t] := by
  simp [tree]

lemma flatMap_leaves_map_loose (anchor : Mark) (ts : List Token) :
    (ts.map loose).flatMap (fun p => (tree anchor p).leaves) = ts := by
  simp [List.flatMap_map, leaves_loose]

lemma flatMap_leaves_ofGroups (anchor : Mark) (groups : List (List Token)) :
    (ofGroups groups).flatMap (fun p => (tree anchor p).leaves) = groups.flatten := by
  fun_induction ofGroups groups with
  | case1 => rfl
  | case2 last content => simp [leaves_cell]
  | case3 last empty => simp [flatMap_leaves_map_loose]
  | case4 group rest _ ih => simp [leaves_cell, ih]

end RowPart

namespace Line

lemma leaves_rowTree (l : Line) : l.rowTree.leaves = l.head :: l.tail := by
  simp only [rowTree, leaves_built, leavesOf_map, rowParts, List.flatMap_append,
    RowPart.flatMap_leaves_map_loose, RowPart.flatMap_leaves_ofGroups]
  exact RowPart.split_append _

lemma keeps_tagTrees {ls : List Line} (closed : ∀ l ∈ ls, l.IsClosed) :
    Keeps (leavesOf (tagTrees ls)) (ls.flatMap Line.tokens) := by
  have parts : Keeps (leavesOf ((ls.flatMap tagParts).map TagPart.tree))
    (ls.flatMap Line.tokens) := by
    rw [List.map_flatMap, leavesOf_flatMap]
    refine .flatMap fun l hl => ?_
    exact (TagPart.keeps_ofTokens false (l.head :: l.tail)).trans (closed l hl).keeps
  cases ls with
  | nil => simpa [tagTrees] using Keeps.refl []
  | cons l rest => simpa [tagTrees] using parts

lemma keeps_tableTrees {ls : List Line} (closed : ∀ l ∈ ls, l.IsClosed) :
    Keeps (leavesOf (tableTrees ls)) (ls.flatMap Line.tokens) := by
  have rows : Keeps (ls.flatMap fun l => l.rowTree.leaves) (ls.flatMap Line.tokens) :=
    .flatMap fun l hl => by simpa [leaves_rowTree] using (closed l hl).keeps
  cases ls with
  | nil => simpa [tableTrees] using Keeps.refl []
  | cons l rest => simpa [tableTrees, leavesOf_map] using rows

end Line

lemma Block.leaves_tree (b : Block) : b.tree.leaves = b.tokens := by
  obtain ⟨opening, content, closing⟩ := b
  cases closing <;> simp [Block.tree, Block.closingTrees, Block.tokens]

@[simp] lemma Item.leavesOf_trees (i : Item) : leavesOf i.trees = i.tokens :=
  leavesOf_map_leaf i.tokens

lemma Entry.keeps {α : Type} {member : α → Tree} {items : α → List Item} {entries : List (Entry α)}
    (members : ∀ a, (∀ i ∈ items a, i.IsClosed) →
    Keeps (member a).leaves ((items a).flatMap Item.tokens))
    (closed : ∀ i ∈ entries.flatMap (Entry.items items), i.IsClosed) :
    Keeps (leavesOf (entries.flatMap (Entry.trees member)))
      ((entries.flatMap (Entry.items items)).flatMap Item.tokens) := by
  rw [leavesOf_flatMap, List.flatMap_assoc]
  refine .flatMap fun e he => ?_
  have own : ∀ i ∈ e.items items, i.IsClosed :=
    fun i hi => closed i (List.mem_flatMap.mpr ⟨e, he, hi⟩)
  cases e with
  | placed a => simpa [Entry.trees, Entry.items] using members a own
  | stray i => simpa [Entry.trees, Entry.items] using Keeps.refl i.tokens

lemma keeps_flatMap_leaves {α : Type} {member : α → Tree} {items : α → List Item} {as : List α}
    (members : ∀ a, (∀ i ∈ items a, i.IsClosed) →
    Keeps (member a).leaves ((items a).flatMap Item.tokens))
    (closed : ∀ i ∈ as.flatMap items, i.IsClosed) :
    Keeps (leavesOf (as.map member)) ((as.flatMap items).flatMap Item.tokens) := by
  rw [leavesOf_map, List.flatMap_assoc]
  exact .flatMap fun a ha => members a fun i hi => closed i (List.mem_flatMap.mpr ⟨a, ha, hi⟩)

lemma Step.keeps (s : Step) (closed : ∀ i ∈ s.items, i.IsClosed) :
    Keeps s.tree.leaves (s.items.flatMap Item.tokens) := by
  simp only [Step.items, List.forall_mem_cons, List.forall_mem_append,
    Item.forall_isClosed_map_line] at closed
  obtain ⟨line, -, rows⟩ := closed
  have block : Keeps (leavesOf (s.block.toList.map Block.tree))
      ((s.block.toList.map Item.block).flatMap Item.tokens) := by
    rw [leavesOf_map, List.flatMap_map]
    exact .flatMap fun b _ => by simpa [Item.tokens, Block.leaves_tree] using Keeps.refl b.tokens
  have name := ((Line.keeps_nameTree s.line.head s.line.tail).cons s.line.head).trans
    (Line.IsClosed.keeps line)
  have below := block.append (Line.keeps_tableTrees rows)
  simpa [Step.tree, Step.items, Item.tokens, Line.tokens] using name.append below

lemma Steps.keeps (s : Steps) (closed : ∀ i ∈ s.items, i.IsClosed) :
    Keeps s.tree.leaves (s.items.flatMap Item.tokens) := by
  simpa [Steps.tree, Steps.items, sectionTree] using Entry.keeps Step.keeps closed

lemma Heading.keeps (h : Heading) (closed : ∀ i ∈ h.items, i.IsClosed) :
    Keeps (leavesOf h.trees) (h.items.flatMap Item.tokens) := by
  simp only [Heading.items, List.forall_mem_cons, List.forall_mem_append,
    Item.forall_isClosed_map_line] at closed
  obtain ⟨tags, header, -⟩ := closed
  have line := (Line.keeps_headerTrees h.header).trans (Line.IsClosed.keeps header)
  have all := ((Line.keeps_tagTrees tags).append line).append
    (.refl (h.description.flatMap Line.tokens))
  simpa [Heading.trees, Heading.items, Heading.descriptionTree, leavesOf_flatMap, Item.tokens] using
    all

lemma Examples.keeps (e : Examples) (closed : ∀ i ∈ e.items, i.IsClosed) :
    Keeps e.tree.leaves (e.items.flatMap Item.tokens) := by
  obtain ⟨heading, rows⟩ := List.forall_mem_append.mp closed
  have all := (e.heading.keeps heading).append
    (Line.keeps_tableTrees (Item.forall_isClosed_map_line.mp rows))
  simpa [Examples.tree, Examples.items] using all

lemma Scenario.keeps (s : Scenario) (closed : ∀ i ∈ s.items, i.IsClosed) :
    Keeps s.tree.leaves (s.items.flatMap Item.tokens) := by
  obtain ⟨front, examples⟩ := List.forall_mem_append.mp closed
  obtain ⟨heading, steps⟩ := List.forall_mem_append.mp front
  have all := ((s.heading.keeps heading).append (s.steps.keeps steps)).append
    (keeps_flatMap_leaves Examples.keeps examples)
  simpa [Scenario.tree, Scenario.items] using all

lemma Scenarios.keeps (s : Scenarios) (closed : ∀ i ∈ s.items, i.IsClosed) :
    Keeps s.tree.leaves (s.items.flatMap Item.tokens) := by
  simpa [Scenarios.tree, Scenarios.items, sectionTree] using Entry.keeps Scenario.keeps closed

lemma Background.keeps (b : Background) (closed : ∀ i ∈ b.items, i.IsClosed) :
    Keeps b.tree.leaves (b.items.flatMap Item.tokens) := by
  obtain ⟨heading, steps⟩ := List.forall_mem_append.mp closed
  simpa [Background.tree, Background.items] using
    (b.heading.keeps heading).append (b.steps.keeps steps)

lemma BusinessRule.keeps (r : BusinessRule) (closed : ∀ i ∈ r.items, i.IsClosed) :
    Keeps r.tree.leaves (r.items.flatMap Item.tokens) := by
  obtain ⟨front, scenarios⟩ := List.forall_mem_append.mp closed
  obtain ⟨heading, background⟩ := List.forall_mem_append.mp front
  have all := ((r.heading.keeps heading).append
    (keeps_flatMap_leaves Background.keeps background)).append
    (r.scenarios.keeps scenarios)
  simpa [BusinessRule.tree, BusinessRule.items] using all

lemma Content.keeps (anchor : Mark) (c : Content) (closed : ∀ i ∈ c.items, i.IsClosed) :
    Keeps (c.tree anchor).leaves (c.items.flatMap Item.tokens) := by
  cases c with
  | scenarios s => exact s.keeps closed
  | rules es =>
    simpa [Content.tree, Content.items, sectionTree] using Entry.keeps BusinessRule.keeps closed

theorem Feature.keeps (f : Feature) (closed : ∀ i ∈ f.items, i.IsClosed) :
    Keeps f.tree.leaves (f.opening.junk.flatMap Line.tokens ++ f.items.flatMap Item.tokens) := by
  obtain ⟨front, content⟩ := List.forall_mem_append.mp closed
  obtain ⟨heading, background⟩ := List.forall_mem_append.mp front
  have head : Keeps (leavesOf f.opening.headingTrees)
      ((f.opening.heading.toList.flatMap Heading.items).flatMap Item.tokens) := by
    rw [Opening.headingTrees]
    cases h : f.opening.heading with
    | none => simpa using Keeps.refl []
    | some h' => simpa using h'.keeps (by simpa [h] using heading)
  have body := (keeps_flatMap_leaves Background.keeps background).append
    (f.content.keeps f.anchor content)
  have all := (Keeps.refl (f.opening.junk.flatMap Line.tokens)).append (head.append body)
  simpa [Feature.tree, Feature.bodyTree, Feature.items, leavesOf_flatMap] using all

end FeatureFile
