import FeatureFile.Proofs.Tree.Accounts

namespace FeatureFile

open FeatureFile.Tree (leaf anyError IsPlain)

variable (o : Options)

lemma Step.accounts (s : Step) : Accounts s.items [s.tree] (s.remarks o) := by
  have name : Accounts [.line s.line] [leaf s.line.head,
    Line.nameTree s.line.head s.line.tail] [] :=
    .lines [s.line] (.plain ((IsPlain.leaves [s.line.head]).append (Line.isPlain_nameTree _ _)))
  have block := Accounts.map s.block.toList Block.accounts
  rw [← List.map_eq_flatMap] at block
  have table := Accounts.lines s.rows (Line.accounts_tableTrees o s.rows)
  exact (name.append (block.append table)).built (by decide) s.line.start

lemma Steps.accounts (s : Steps) : Accounts s.items [s.tree] (s.remarks o) :=
  Entry.accounts (by decide) s.anchor s.entries (Step.accounts o)

lemma Heading.accounts (h : Heading) : Accounts h.items h.trees h.remarks := by
  have tags := Accounts.lines h.tags (Line.accounts_tagTrees h.tags)
  have header : Accounts [.line h.header] h.header.headerTrees [] :=
    .lines [h.header] (.plain (Line.isPlain_headerTrees h.header))
  have description : Accounts (h.description.map .line) [h.descriptionTree] [] :=
    .lines h.description (.plain (.built (by decide) _ (Line.isPlain_tokenTrees h.description)))
  have whole := tags.append (header.append description)
  simpa only [Heading.trees, Heading.items, Heading.remarks, List.append_nil, List.append_assoc,
    List.singleton_append] using whole

lemma Examples.accounts (e : Examples) : Accounts e.items [e.tree] (e.remarks o) := by
  have inner :=
    e.heading.accounts.append (Accounts.lines e.rows (Line.accounts_tableTrees o e.rows))
  rw [Examples.tree, Examples.remarks]
  cases rows : e.rows with
  | nil =>
    rw [rows] at inner
    have other : Rule.examples ≠ .docStrings := by decide
    have whole :=
      inner.node other e.heading.head.start [.atToken .missingTable e.heading.header.head] rfl
      (by simp [Remark.atToken, Remark.isStructural, Diagnostic.atToken, Diagnostic.of])
    rw [Examples.items, rows]
    exact whole.of_mem_iff fun r => by simp [Line.tableRemarks, or_comm]
  | cons l rest =>
    rw [rows] at inner
    rw [Examples.items, rows]
    exact inner.built (by decide) _

namespace Scenario

def ownRemarks (s : Scenario) : List Remark :=
  if s.isOutline then
    if s.examples.isEmpty then [.atToken .missingExamples s.heading.header.head] else []
  else s.examples.map fun e => .atToken .misplacedExamples e.heading.head

lemma isFaulty_eq (s : Scenario) : s.isFaulty = s.ownRemarks.any Remark.isError := by
  rw [isFaulty, ownRemarks]
  split
  · split <;> simp_all [Remark.atToken, Remark.isError, Diagnostic.atToken, Fault.isUneven]
  · cases s.examples <;> simp [Remark.atToken, Remark.isError, Diagnostic.atToken, Fault.isUneven]

lemma isStructural_of_mem_ownRemarks (s : Scenario) :
    ∀ r ∈ s.ownRemarks, r.isStructural ∧ r ≠ .openBlock := by
  rw [ownRemarks]
  split
  · split <;> simp [Remark.atToken, Remark.isStructural, Diagnostic.atToken, Diagnostic.of]
  · simp [Remark.atToken, Remark.isStructural, Diagnostic.atToken, Diagnostic.of]

lemma mem_examplesRemarks (s : Scenario) (r : Remark) :
    r ∈ s.examplesRemarks o ↔
      r ∈ s.ownRemarks ∨ r ∈ s.examples.flatMap (Examples.remarks o) := by
  rw [examplesRemarks, ownRemarks]
  split
  · split <;> simp_all
  · simp [and_or_left, exists_or, eq_comm]

lemma accounts (s : Scenario) : Accounts s.items [s.tree] (s.remarks o) := by
  have inner :=
    (s.heading.accounts.append (s.steps.accounts o)).append
      (Accounts.map s.examples (Examples.accounts o))
  have other : s.rule ≠ .docStrings := by
    rw [rule]
    split <;> decide
  have whole := inner.node other s.heading.head.start s.ownRemarks s.isFaulty_eq
    s.isStructural_of_mem_ownRemarks
  rw [Scenario.tree, show s.heading.trees ++ s.steps.tree :: s.examples.map Examples.tree =
    s.heading.trees ++ [s.steps.tree] ++ s.examples.map Examples.tree by simp]
  -- The remarks on the examples come with those of each, not in front.
  apply whole.of_mem_iff
  intro r
  simp only [Scenario.remarks, List.mem_append, mem_examplesRemarks]
  exact or_left_comm

end Scenario

lemma Scenarios.accounts (s : Scenarios) : Accounts s.items [s.tree] (s.remarks o) :=
  Entry.accounts (by decide) s.anchor s.entries (Scenario.accounts o)

lemma Background.accounts (b : Background) : Accounts b.items [b.tree] (b.remarks o) :=
  (b.heading.accounts.append (b.steps.accounts o)).built (by decide) b.heading.head.start

lemma BusinessRule.accounts (r : BusinessRule) : Accounts r.items [r.tree] (r.remarks o) := by
  have inner :=
    (r.heading.accounts.append (Accounts.map r.background.toList (Background.accounts o))).append
    (r.scenarios.accounts o)
  rw [List.append_assoc r.heading.trees] at inner
  exact inner.built (by decide) r.heading.head.start

lemma Content.accounts (anchor : Mark) (c : Content) :
    Accounts c.items [c.tree anchor] (c.remarks o) := by
  cases c with
  | scenarios s => exact s.accounts o
  | rules es => exact Entry.accounts (by decide) anchor es (BusinessRule.accounts o)

lemma Opening.accounts_headingTrees (front : Opening) :
    Accounts (front.heading.toList.flatMap Heading.items) front.headingTrees
      (front.heading.toList.flatMap Heading.remarks) := by
  rw [headingTrees]
  cases front.heading with
  | some h => simpa using h.accounts
  | none =>
    have name : IsPlain [.built .name front.anchor []] := .built (by decide) _ (.leaves [])
    have description : IsPlain [.built .description front.anchor []] :=
      .built (by decide) _ (.leaves [])
    exact .plain (name.append description)

theorem Feature.accounts (f : Feature) : Accounts f.items [f.tree] (f.remarks o) := by
  have body : Accounts _ [f.bodyTree] _ :=
    ((Accounts.map f.background.toList (Background.accounts o)).append
    (f.content.accounts o f.anchor)).built (by decide) f.anchor
  have junk := Accounts.plain (Line.isPlain_tokenTrees f.opening.junk)
  have inner := (junk.append f.opening.accounts_headingTrees).append body
  have flagged : f.opening.missing.isSome =
      (f.opening.missing.toList.map MissingHeader.remark).any Remark.isError := by
    cases f.opening.missing <;>
      simp [MissingHeader.remark, Remark.atToken, Remark.isError, Diagnostic.atToken,
        Fault.isUneven]
  have structural : ∀ r ∈ f.opening.missing.toList.map MissingHeader.remark,
      r.isStructural ∧ r ≠ .openBlock := by
    simp [MissingHeader.remark, Remark.atToken, Remark.isStructural, Diagnostic.atToken,
      Diagnostic.of]
  have other : Rule.feature ≠ .docStrings := by decide
  have whole := inner.node other f.opening.anchor _ flagged structural
  simpa only [Feature.tree, Feature.items, Feature.remarks, Opening.remarks, List.nil_append,
    List.append_assoc] using whole

end FeatureFile
