import FeatureFile.Proofs.Document.Formed
import FeatureFile.Proofs.Tree.Traced

namespace FeatureFile

open FeatureFile.Tree (leaf node built nodesOf)

def Rule.isLinePart : Rule → Bool
  | tag | tableRow => true
  | _ => false

namespace Tree

def IsPartOf (n : Tree) (l : Line) : Prop :=
  (l.kind = .pipe ∧ n = l.rowTree) ∨ (l.kind = .atSign ∧ ∃ part ∈ l.tagParts, n = part.tree)

end Tree

abbrev LinesTraced (items : List Item) (ts : List Tree) : Prop :=
  Traced Rule.isLinePart (fun i n => ∃ l, i = .line l ∧ n.IsPartOf l) items ts

namespace Line

lemma traced_nameTree (keyword : Token) (rest : List Token) : LinesTraced [] [nameTree keyword rest] := by
  refine .node _ rfl _ _ (.map_plain fun t _ => ?_)
  rw [nameChild]
  split
  · exact (Traced.leaves [t]).node _ rfl _ _
  · exact .leaves [t]

lemma traced_headerTrees (l : Line) : LinesTraced [] l.headerTrees := by
  rw [headerTrees]
  split
  · exact (Traced.leaves [l.head]).append (traced_nameTree _ _)
  · split
    · exact (Traced.leaves [l.head, _]).append (traced_nameTree _ _)
    · exact (Traced.leaves [l.head]).append (traced_nameTree _ _)

lemma traced_rowTree {l : Line} (bar : l.kind = .pipe) : LinesTraced [.line l] [l.rowTree] := by
  refine .part ⟨l, rfl, .inl ⟨bar, rfl⟩⟩ (.map_plain fun part _ => ?_)
  cases part with
  | loose t => exact .leaves [t]
  | cell tokens =>
    refine .node _ rfl _ _ (.map_plain fun t _ => ?_)
    rw [RowPart.cellChild]
    split
    · exact (Traced.leaves [t]).node _ rfl _ _
    · exact .leaves [t]

lemma traced_tableTrees {ls : List Line} (bars : ∀ l ∈ ls, l.kind = .pipe) :
    LinesTraced (ls.map .line) (tableTrees ls) := by
  cases ls with
  | nil => exact .leaves []
  | cons l rest =>
    obtain ⟨first, others⟩ := List.forall_mem_cons.mp bars
    have rows : LinesTraced (rest.flatMap fun l => [.line l]) (rest.map rowTree) :=
      .map fun l' hl => traced_rowTree (others l' hl)
    have head := (traced_rowTree first).node .tableHead rfl l.start false
    have whole := (head.append (rows.node .tableRows rfl l.stop false)).node
      .table rfl l.start false
    rwa [← List.map_eq_flatMap] at whole

lemma traced_tagTrees {ls : List Line} (signs : ∀ l ∈ ls, l.kind = .atSign) :
    LinesTraced (ls.map .line) (tagTrees ls) := by
  cases ls with
  | nil => exact .leaves []
  | cons l rest =>
    have parts : LinesTraced ((l :: rest).flatMap fun l => [Item.line l])
        ((l :: rest).flatMap fun l => l.tagParts.map TagPart.tree) := by
      refine .flatMap fun l' hl => ?_
      have each : LinesTraced (l'.tagParts.flatMap fun _ => [.line l']) (l'.tagParts.map TagPart.tree) := by
        refine .map fun part hp => ?_
        cases part with
        | stray t => exact (Traced.leaves [t]).mono (List.nil_subset _)
        | tag sign name =>
          refine .part ⟨l', rfl, .inr ⟨signs l' hl, _, hp, rfl⟩⟩ ?_
          cases name with
          | none => exact .leaves [sign]
          | some name => exact .leaves [sign, name]
      exact each.mono (by simp [List.subset_def])
    have whole := parts.node .tags rfl l.start
      (((l :: rest).flatMap tagParts).any TagPart.isStray)
    rw [← List.map_eq_flatMap, ← List.map_flatMap] at whole
    exact whole

end Line

lemma Block.traced_tree (b : Block) : LinesTraced [] [b.tree] := by
  have value : LinesTraced [] [built .docStringsValue b.opening.stop (b.content.map leaf)] :=
    (Traced.leaves b.content).node _ rfl _ _
  have closing : LinesTraced [] b.closingTrees := by
    rw [closingTrees]
    split
    · exact .leaves []
    · exact .leaves _
  exact ((Traced.leaves b.opening.tokens).append (value.append closing)).node _ rfl _ _

lemma Step.traced {s : Step} (formed : s.IsFormed) : LinesTraced s.items [s.tree] := by
  have front := (Traced.leaves [s.line.head]).append (Line.traced_nameTree s.line.head s.line.tail)
  have block : LinesTraced [] (s.block.toList.map Block.tree) := .map_plain fun b _ => b.traced_tree
  have inner := front.append (block.append (Line.traced_tableTrees formed.rows))
  exact (inner.node _ rfl _ _).mono (by simp [items])

lemma Entry.traced {α : Type} {entry : Entry α} {formed : α → Prop} {other : Item → Prop}
    {items : α → List Item} {member : α → Tree} (all : entry.All formed other)
    (placed : ∀ a, formed a → LinesTraced (items a) [member a]) :
    LinesTraced (entry.items items) (entry.trees member) := by
  cases entry with
  | placed a => exact placed a all
  | stray i => exact (Traced.leaves _).mono (List.nil_subset _)

lemma Steps.traced {s : Steps} (formed : s.IsFormed) : LinesTraced s.items [s.tree] :=
  .node _ rfl _ _ (.flatMap fun e he => Entry.traced (formed e he) fun _ => Step.traced)

lemma Heading.traced {h : Heading} (formed : h.IsFormed) : LinesTraced h.items h.trees := by
  have text : LinesTraced [] [h.descriptionTree] := by
    refine .node _ rfl _ _ ?_
    have leaves : h.description.flatMap Line.tokenTrees = (h.description.flatMap Line.tokens).map leaf := by
      rw [List.map_flatMap]
      rfl
    exact leaves ▸ .leaves _
  have whole := ((Line.traced_tagTrees formed.tags).append h.header.traced_headerTrees).append text
  refine whole.mono ?_
  simp [items]

lemma Examples.traced {e : Examples} (formed : e.IsFormed) : LinesTraced e.items [e.tree] :=
  ((Heading.traced formed.heading).append (Line.traced_tableTrees formed.rows)).node _ rfl _ _

lemma Scenario.traced {s : Scenario} (formed : s.IsFormed) : LinesTraced s.items [s.tree] := by
  have inner := ((Heading.traced formed.heading).append (Steps.traced formed.steps)).append
    (.map fun e he => Examples.traced (formed.examples e he))
  have other : s.rule.isLinePart = false := by
    rw [rule]
    split <;> rfl
  rw [List.append_assoc s.heading.trees] at inner
  exact inner.node _ other _ _

lemma Scenarios.traced {s : Scenarios} (formed : s.IsFormed) : LinesTraced s.items [s.tree] :=
  .node _ rfl _ _ (.flatMap fun e he => Entry.traced (formed e he) fun _ => Scenario.traced)

lemma Background.traced {b : Background} (formed : b.IsFormed) : LinesTraced b.items [b.tree] :=
  ((Heading.traced formed.heading).append (Steps.traced formed.steps)).node _ rfl _ _

lemma Background.traced_option {o : Option Background} (formed : ∀ b ∈ o, b.IsFormed) :
    LinesTraced (o.toList.flatMap items) (o.toList.map tree) :=
  .map fun b hb => traced (formed b (by simpa using hb))

lemma BusinessRule.traced {r : BusinessRule} (formed : r.IsFormed) : LinesTraced r.items [r.tree] := by
  have inner := ((Heading.traced formed.heading).append
    (Background.traced_option formed.background)).append (Scenarios.traced formed.scenarios)
  rw [List.append_assoc r.heading.trees] at inner
  exact inner.node _ rfl _ _

lemma Content.traced {c : Content} (anchor : Mark) (formed : c.IsFormed) :
    LinesTraced c.items [c.tree anchor] := by
  cases c with
  | scenarios s => exact Scenarios.traced formed
  | rules es =>
    exact .node _ rfl _ _ (.flatMap fun e he =>
      Entry.traced (formed.2 e he) fun _ => BusinessRule.traced)

theorem Feature.traced_children {f : Feature} (formed : f.IsFormed) :
    LinesTraced f.items f.tree.children := by
  have junk : LinesTraced [] (f.opening.junk.flatMap Line.tokenTrees) := by
    have skipped : LinesTraced [] ((f.opening.junk.flatMap Line.tokens).map leaf) := .leaves _
    rwa [List.map_flatMap] at skipped
  have heading : LinesTraced (f.opening.heading.toList.flatMap Heading.items) f.opening.headingTrees := by
    rw [Opening.headingTrees]
    cases found : f.opening.heading with
    | none =>
      exact ((Traced.leaves []).node .name rfl f.opening.anchor false).append
        ((Traced.leaves []).node .description rfl f.opening.anchor false)
    | some h => simpa using Heading.traced (formed.heading h found).1
  have body := ((Background.traced_option formed.background).append
    (Content.traced f.anchor formed.content)).node .featureBody rfl f.anchor false
  have whole := (junk.append heading).append body
  rw [List.nil_append, ← List.append_assoc] at whole
  exact whole

lemma Feature.exists_line {f : Feature} (formed : f.IsFormed) {n : Tree}
    (mem : n ∈ nodesOf f.tree.children) (part : n.rule?.any Rule.isLinePart) :
    ∃ l, Item.line l ∈ f.items ∧ n.IsPartOf l := by
  obtain ⟨_, item, l, rfl, here⟩ := Feature.traced_children formed n mem part
  exact ⟨l, item, here⟩

end FeatureFile
