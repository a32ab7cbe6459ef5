import FeatureFile.Proofs.Tree.Accounts

namespace FeatureFile

open FeatureFile.Tree (anyError)

lemma Block.hasError_tree (b : Block) : b.tree.hasError = b.closing.isNone := by
  obtain ⟨opening, content, closing⟩ := b
  cases closing <;> simp [Block.tree, Line.tokenTrees, closingTrees]

def Entry.isFaulty {α : Type} (member : α → Tree) : Entry α → Bool
  | placed a => (member a).hasError
  | stray _ => true

lemma hasError_sectionTree {α : Type} (rule : Rule) (anchor : Mark) (member : α → Tree)
    (entries : List (Entry α)) :
    (sectionTree rule anchor member entries).hasError = entries.any (Entry.isFaulty member) := by
  have pointwise : Entry.isFaulty member = fun e => e.isStray || anyError (e.trees member) := by
    funext e
    cases e <;> simp [Entry.isFaulty, Entry.isStray, Entry.trees]
  rw [sectionTree, Tree.hasError_node, Tree.anyError_flatMap, pointwise, Bool.eq_iff_iff]
  simp [and_or_left, exists_or]

lemma Step.hasError_tree (s : Step) : s.tree.hasError = s.block.any (·.closing.isNone) := by
  have table := (Line.isPlain_tableTrees s.rows).error
  have name := (Line.isPlain_nameTree s.line.head s.line.tail).error
  simp only [Tree.anyError_cons, Tree.anyError_nil, Bool.or_false] at name
  cases h : s.block <;> simp [Step.tree, h, table, name, Block.hasError_tree]

lemma Steps.hasError_tree (s : Steps) :
    s.tree.hasError = s.entries.any (Entry.isFaulty Step.tree) :=
  hasError_sectionTree _ _ _ _

lemma Heading.anyError_trees (h : Heading) : anyError h.trees = h.tags.any Line.hasFaultyTags := by
  have header := (Line.isPlain_headerTrees h.header).error
  have description := (Line.isPlain_tokenTrees h.description).error
  simp [Heading.trees, descriptionTree, header, description, Line.anyError_tagTrees]

lemma Examples.hasError_tree (e : Examples) :
    e.tree.hasError = (e.rows.isEmpty || e.heading.tags.any Line.hasFaultyTags) := by
  have table := (Line.isPlain_tableTrees e.rows).error
  simp [Examples.tree, table, Heading.anyError_trees]

lemma Scenario.hasError_tree (s : Scenario) :
    s.tree.hasError =
      (s.isFaulty || (s.heading.tags.any Line.hasFaultyTags ||
        (s.steps.tree.hasError || s.examples.any (·.tree.hasError)))) := by
  simp [Scenario.tree, Heading.anyError_trees, Tree.anyError_map]

lemma Scenarios.hasError_tree (s : Scenarios) :
    s.tree.hasError = s.entries.any (Entry.isFaulty Scenario.tree) :=
  hasError_sectionTree _ _ _ _

lemma Background.hasError_tree (b : Background) :
    b.tree.hasError = (b.heading.tags.any Line.hasFaultyTags || b.steps.tree.hasError) := by
  simp [Background.tree, Heading.anyError_trees]

lemma BusinessRule.hasError_tree (r : BusinessRule) :
    r.tree.hasError =
      (r.heading.tags.any Line.hasFaultyTags ||
        (r.background.any (·.tree.hasError) || r.scenarios.tree.hasError)) := by
  cases h : r.background <;> simp [BusinessRule.tree, h, Heading.anyError_trees]

lemma Content.hasError_tree (anchor : Mark) (c : Content) :
    (c.tree anchor).hasError = match c with
      | scenarios s => s.tree.hasError
      | rules es => es.any (Entry.isFaulty BusinessRule.tree) := by
  cases c with
  | scenarios s => rfl
  | rules es => exact hasError_sectionTree _ _ _ _

lemma Opening.anyError_headingTrees (o : Opening) :
    anyError o.headingTrees = o.heading.any (·.tags.any Line.hasFaultyTags) := by
  cases h : o.heading <;> simp [Opening.headingTrees, h, Heading.anyError_trees]

lemma Feature.hasError_tree (f : Feature) :
    f.tree.hasError =
      (f.opening.missing.isSome || (f.opening.heading.any (·.tags.any Line.hasFaultyTags) ||
        (f.background.any (·.tree.hasError) || (f.content.tree f.anchor).hasError))) := by
  have junk := (Line.isPlain_tokenTrees f.opening.junk).error
  cases h : f.background <;> simp [Feature.tree, bodyTree, h, junk, Opening.anyError_headingTrees]

end FeatureFile
