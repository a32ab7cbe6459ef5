import FeatureFile.Document.Tree
import FeatureFile.Proofs.Alike.Document
import FeatureFile.Proofs.Tree.Nodes

namespace FeatureFile

open FeatureFile.Tree (leaf node built)

inductive Tree.Alike (L : Likeness) : Tree → Tree → Prop
  | leaf {t u : Token} : L.token t u → Alike L (leaf t) (leaf u)
  | node {rule : Rule} {anchor anchor' : Mark} {recovered : Bool} {cs ds : List Tree} :
      L.mark anchor anchor' → List.Forall₂ (Alike L) cs ds →
      Alike L (node rule anchor recovered cs) (node rule anchor' recovered ds)

variable {L : Likeness}

namespace Tree

lemma alike_built {rule : Rule} {anchor anchor' : Mark} {cs ds : List Tree}
    (place : L.mark anchor anchor') (h : List.Forall₂ (Alike L) cs ds) :
    Alike L (built rule anchor cs) (built rule anchor' ds) :=
  .node place h

lemma alike_leaves {ts us : List Token} (h : List.Forall₂ L.token ts us) :
    List.Forall₂ (Alike L) (ts.map leaf) (us.map leaf) :=
  List.rel_map (fun _ _ => .leaf) h

end Tree

open FeatureFile.Tree (alike_built alike_leaves)

namespace Line

lemma alike_nameChild {t u : Token} (h : L.token t u) : (nameChild t).Alike L (nameChild u) := by
  rw [nameChild, nameChild, ← L.kind h]
  split
  · exact alike_built (L.start h) (.cons (.leaf h) .nil)
  · exact .leaf h

lemma alike_nameTree {t u : Token} {ts us : List Token} (keyword : L.token t u)
    (rest : List.Forall₂ L.token ts us) : (nameTree t ts).Alike L (nameTree u us) := by
  have shown := rest.dropWhile (L.kind_eq TokenKind.isPad)
  have text := shown.filter (L.kind_eq fun k => k ≠ .comment)
  have trimmed := Text.forall₂_dropEnd (L.kind_eq TokenKind.isPad) text
  refine alike_built ?_ (List.rel_map (fun _ _ here => alike_nameChild here) trimmed)
  generalize ts.dropWhile (·.kind.isPad) = a at shown
  generalize us.dropWhile (·.kind.isPad) = b at shown
  cases shown with
  | nil => exact L.stop (alike_lastOf keyword rest)
  | cons first _ => exact L.start first

variable {l m : Line} {ls ms : List Line}

lemma Alike.headerTrees (h : Alike L l m) :
    List.Forall₂ (Tree.Alike L) l.headerTrees m.headerTrees := by
  have tail := h.tail
  rw [Line.headerTrees, Line.headerTrees]
  generalize l.tail = ts at tail
  generalize m.tail = us at tail
  cases tail with
  | nil => exact .cons (.leaf h.head) (.cons (alike_nameTree h.head .nil) .nil)
  | cons first rest =>
    dsimp only
    rw [← L.kind first]
    split
    · exact .cons (.leaf h.head) (.cons (.leaf first) (.cons (alike_nameTree first rest) .nil))
    · exact .cons (.leaf h.head) (.cons (alike_nameTree h.head (.cons first rest)) .nil)

lemma Alike.tokenTrees (h : Alike L l m) : List.Forall₂ (Tree.Alike L) l.tokenTrees m.tokenTrees :=
  alike_leaves h.tokens

end Line

namespace TagPart

inductive Alike (L : Likeness) : TagPart → TagPart → Prop
  | tag {s s' : Token} {n n' : Option Token} : L.token s s' → Option.Rel L.token n n' →
      Alike L (.tag s n) (.tag s' n')
  | stray {t u : Token} : L.token t u → Alike L (.stray t) (.stray u)

lemma alike_name? {ts us : List Token} (h : List.Forall₂ L.token ts us) :
    Option.Rel L.token (name? ts) (name? us) := by
  cases h with
  | nil => exact .none
  | cons first _ =>
    rw [name?, name?, List.head?_cons, List.head?_cons, Option.filter_some, Option.filter_some,
      ← L.kind first]
    split
    · exact .some first
    · exact .none

lemma alike_ofTokens (signed : Bool) {ts us : List Token} (h : List.Forall₂ L.token ts us) :
    List.Forall₂ (Alike L) (ofTokens signed ts) (ofTokens signed us) := by
  induction h generalizing signed with
  | nil => exact .nil
  | cons first rest ih =>
    rw [ofTokens, ofTokens, ← L.kind first]
    split
    · exact .cons (.tag first (alike_name? rest)) (ih true)
    · split
      · exact ih false
      · exact .cons (.stray first) (ih false)

lemma Alike.tree {p q : TagPart} (h : Alike L p q) : p.tree.Alike L q.tree := by
  cases h with
  | stray t => exact .leaf t
  | tag sign name =>
    cases name with
    | none => exact .node (L.start sign) (.cons (.leaf sign) .nil)
    | some name => exact .node (L.start sign) (.cons (.leaf sign) (.cons (.leaf name) .nil))

lemma Alike.isStray_eq {p q : TagPart} (h : Alike L p q) : p.isStray = q.isStray := by
  cases h <;> rfl

end TagPart

namespace RowPart

inductive Alike (L : Likeness) : RowPart → RowPart → Prop
  | cell {ts us : List Token} : List.Forall₂ L.token ts us → Alike L (.cell ts) (.cell us)
  | loose {t u : Token} : L.token t u → Alike L (.loose t) (.loose u)

lemma alike_split {ts us : List Token} (h : List.Forall₂ L.token ts us) :
    List.Forall₂ L.token (split ts).1 (split us).1 ∧
      List.Forall₂ (List.Forall₂ L.token) (split ts).2 (split us).2 := by
  induction h with
  | nil => exact ⟨.nil, .nil⟩
  | cons first _ ih =>
    rw [split, split, ← L.kind first]
    split
    · exact ⟨.nil, .cons (.cons first ih.1) ih.2⟩
    · exact ⟨.cons first ih.1, ih.2⟩

lemma alike_ofGroups {gs gs' : List (List Token)}
    (h : List.Forall₂ (List.Forall₂ L.token) gs gs') :
    List.Forall₂ (Alike L) (ofGroups gs) (ofGroups gs') := by
  induction h with
  | nil => exact .nil
  | cons first rest ih =>
    cases rest with
    | cons _ _ => exact .cons (.cell first) ih
    | nil =>
      rw [ofGroups, ofGroups, first.any_eq (L.kind_eq fun k => k = .cell)]
      split
      · exact .cons (.cell first) .nil
      · exact List.rel_map (fun _ _ => .loose) first

lemma Alike.tree {p q : RowPart} {anchor anchor' : Mark} (h : Alike L p q)
    (place : L.mark anchor anchor') : (p.tree anchor).Alike L (q.tree anchor') := by
  cases h with
  | loose t => exact .leaf t
  | cell tokens =>
    refine alike_built place (List.rel_map (fun t u here => ?_) tokens)
    rw [cellChild, cellChild, ← L.kind here]
    split
    · exact alike_built (L.start here) (.cons (.leaf here) .nil)
    · exact .leaf here

end RowPart

namespace Line

variable {l m : Line} {ls ms : List Line}

lemma Alike.tagParts (h : Alike L l m) :
    List.Forall₂ (TagPart.Alike L) l.tagParts m.tagParts :=
  TagPart.alike_ofTokens false h.content

lemma Alike.rowParts (h : Alike L l m) :
    List.Forall₂ (RowPart.Alike L) l.rowParts m.rowParts := by
  have parts := RowPart.alike_split h.content
  exact List.rel_append (List.rel_map (fun _ _ => .loose) parts.1) (RowPart.alike_ofGroups parts.2)

lemma Alike.rowTree (h : Alike L l m) : l.rowTree.Alike L m.rowTree :=
  alike_built h.start (List.rel_map (fun _ _ part => part.tree h.start) h.rowParts)

lemma alike_tagTrees (h : List.Forall₂ (Alike L) ls ms) :
    List.Forall₂ (Tree.Alike L) (tagTrees ls) (tagTrees ms) := by
  have parts : List.Forall₂ (TagPart.Alike L) (ls.flatMap tagParts) (ms.flatMap tagParts) :=
    List.rel_flatMap h fun _ _ line => line.tagParts
  cases h with
  | nil => exact .nil
  | cons first rest =>
    dsimp only [tagTrees]
    rw [parts.any_eq fun _ _ part => part.isStray_eq]
    exact .cons (.node first.start (List.rel_map (fun _ _ part => part.tree) parts)) .nil

lemma alike_tableTrees (h : List.Forall₂ (Alike L) ls ms) :
    List.Forall₂ (Tree.Alike L) (tableTrees ls) (tableTrees ms) := by
  cases h with
  | nil => exact .nil
  | cons first rest =>
    refine .cons (alike_built first.start (.cons ?_ (.cons ?_ .nil))) .nil
    · exact alike_built first.start (.cons first.rowTree .nil)
    · exact alike_built first.stop (List.rel_map (fun _ _ row => Alike.rowTree row) rest)

end Line

lemma Block.Alike.tree {b c : Block} (h : b.Alike L c) : b.tree.Alike L c.tree := by
  have closing : List.Forall₂ (Tree.Alike L) b.closingTrees c.closingTrees := by
    have closing := h.closing
    rw [closingTrees, closingTrees]
    generalize b.closing = x at closing
    generalize c.closing = y at closing
    cases closing with
    | none => exact .nil
    | some here => exact alike_leaves (List.rel_append here.1 (.cons here.2 .nil))
  rw [Block.tree, Block.tree, h.closing.isNone_eq]
  refine .node h.opening.start (List.rel_append h.opening.tokenTrees (.cons ?_ closing))
  exact alike_built h.opening.stop (alike_leaves h.content)

lemma Entry.Alike.trees {α β : Type} {R : α → β → Prop} {member : α → Tree} {member' : β → Tree}
    (each : ∀ a b, R a b → (member a).Alike L (member' b)) {e : Entry α} {e' : Entry β}
    (h : Entry.Alike L R e e') :
    List.Forall₂ (Tree.Alike L) (e.trees member) (e'.trees member') := by
  cases h with
  | placed here => exact .cons (each _ _ here) .nil
  | stray item => exact alike_leaves item.tokens

lemma alike_sectionTree {α β : Type} {R : α → β → Prop} {member : α → Tree} {member' : β → Tree}
    (rule : Rule) {anchor anchor' : Mark} (place : L.mark anchor anchor')
    (each : ∀ a b, R a b → (member a).Alike L (member' b)) {es : List (Entry α)}
    {es' : List (Entry β)} (h : List.Forall₂ (Entry.Alike L R) es es') :
    (sectionTree rule anchor member es).Alike L (sectionTree rule anchor' member' es') := by
  have flag : es.any Entry.isStray = es'.any Entry.isStray :=
    h.any_eq fun _ _ entry => by cases entry <;> rfl
  rw [sectionTree, sectionTree, flag]
  exact .node place (List.rel_flatMap h fun _ _ entry => entry.trees each)

lemma Step.Alike.tree {s t : Step} (h : s.Alike L t) : s.tree.Alike L t.tree := by
  have blocks := List.rel_map (P := Tree.Alike L) (fun _ _ block => Block.Alike.tree block)
    h.block.forall₂_toList
  have name := Line.alike_nameTree h.line.head h.line.tail
  exact alike_built h.line.start (.cons (.leaf h.line.head) (.cons name
    (List.rel_append blocks (Line.alike_tableTrees h.rows))))

lemma Steps.Alike.tree {s t : Steps} (h : s.Alike L t) : s.tree.Alike L t.tree :=
  alike_sectionTree .steps h.anchor (fun _ _ step => step.tree) h.entries

lemma Heading.Alike.trees {h h' : Heading} (alike : h.Alike L h') :
    List.Forall₂ (Tree.Alike L) h.trees h'.trees := by
  have text := List.rel_flatMap (P := Tree.Alike L) alike.description
    fun _ _ line => line.tokenTrees
  exact List.rel_append
    (List.rel_append (Line.alike_tagTrees alike.tags) alike.header.headerTrees)
    (.cons (alike_built alike.header.stop text) .nil)

lemma Examples.Alike.tree {e e' : Examples} (h : e.Alike L e') : e.tree.Alike L e'.tree := by
  rw [Examples.tree, Examples.tree, h.rows.isEmpty_eq]
  exact .node (L.start h.heading.head)
    (List.rel_append h.heading.trees (Line.alike_tableTrees h.rows))

namespace Scenario

variable {s s' : Scenario}

lemma Alike.isOutline_eq (h : s.Alike L s') : s.isOutline = s'.isOutline := by
  rw [isOutline, isOutline, h.heading.kind]

lemma Alike.tree (h : s.Alike L s') : s.tree.Alike L s'.tree := by
  have rule : s.rule = s'.rule := by rw [Scenario.rule, Scenario.rule, h.isOutline_eq]
  have flag : s.isFaulty = s'.isFaulty := by
    rw [isFaulty, isFaulty, h.isOutline_eq, h.examples.isEmpty_eq]
  rw [Scenario.tree, Scenario.tree, rule, flag]
  exact .node (L.start h.heading.head) (List.rel_append h.heading.trees
    (.cons h.steps.tree (List.rel_map (fun _ _ e => e.tree) h.examples)))

end Scenario

lemma Scenarios.Alike.tree {s s' : Scenarios} (h : s.Alike L s') : s.tree.Alike L s'.tree :=
  alike_sectionTree .scenarios h.anchor (fun _ _ scenario => scenario.tree) h.entries

lemma Background.Alike.tree {b b' : Background} (h : b.Alike L b') : b.tree.Alike L b'.tree :=
  alike_built (L.start h.heading.head) (List.rel_append h.heading.trees (.cons h.steps.tree .nil))

lemma Background.alike_trees {b b' : Option Background} (h : Option.Rel (Background.Alike L) b b') :
    List.Forall₂ (Tree.Alike L) (b.toList.map tree) (b'.toList.map tree) :=
  List.rel_map (fun _ _ background => Alike.tree background) h.forall₂_toList

lemma BusinessRule.Alike.tree {r r' : BusinessRule} (h : r.Alike L r') : r.tree.Alike L r'.tree :=
  alike_built (L.start h.heading.head) (List.rel_append h.heading.trees
    (List.rel_append (Background.alike_trees h.background) (.cons h.scenarios.tree .nil)))

lemma Content.Alike.tree {c c' : Content} {anchor anchor' : Mark} (h : c.Alike L c')
    (place : L.mark anchor anchor') : (c.tree anchor).Alike L (c'.tree anchor') := by
  cases h with
  | scenarios s => exact s.tree
  | rules es => exact alike_sectionTree .businessRules place (fun _ _ rule => rule.tree) es

lemma Opening.Alike.headingTrees {o o' : Opening} (h : o.Alike L o') :
    List.Forall₂ (Tree.Alike L) o.headingTrees o'.headingTrees := by
  have heading := h.heading
  rw [Opening.headingTrees, Opening.headingTrees]
  generalize o.heading = a at heading
  generalize o'.heading = b at heading
  cases heading with
  | some here => exact here.trees
  | none => exact .cons (alike_built h.anchor .nil) (.cons (alike_built h.anchor .nil) .nil)

lemma Feature.Alike.tree {f f' : Feature} (h : f.Alike L f') : f.tree.Alike L f'.tree := by
  have junk := List.rel_flatMap (P := Tree.Alike L) h.opening.junk fun _ _ line => line.tokenTrees
  have body : f.bodyTree.Alike L f'.bodyTree :=
    alike_built h.anchor (List.rel_append (Background.alike_trees h.background)
      (.cons (h.content.tree h.anchor) .nil))
  rw [Feature.tree, Feature.tree, h.opening.missing.isSome_eq]
  exact .node h.opening.anchor
    (List.rel_append (List.rel_append junk h.opening.headingTrees) (.cons body .nil))

end FeatureFile
