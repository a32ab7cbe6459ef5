import FeatureFile.Proofs.Document.Titles
import FeatureFile.Proofs.HeaderKeywords
import FeatureFile.Proofs.Tree.Traced
import FeatureFile.View.Section

namespace FeatureFile

open FeatureFile.Tree (leaf node built nodesOf Fits)

def Rule.isTitled : Rule → Bool
  | step => true
  | rule => rule.isHeaded

def Rule.isTitledBy : Rule → TokenKind → Bool
  | step => TokenKind.isStep
  | rule => rule.isHeadedBy

def Title.Heads : Title → Tree → Prop
  | heading h, n => ∃ (rule : Rule) (front : List Token) (below : List Tree),
      n.rule? = some rule ∧ rule.isHeadedBy h.kind ∧
      n.children = front.map leaf ++ (h.trees ++ below) ∧ ∀ t ∈ front, rule.isHeadedBy t.kind = false
  | step s, n => s.line.kind.isStep ∧ n = s.tree

abbrev TitlesTraced (titles : List Title) (ts : List Tree) : Prop :=
  Traced Rule.isTitled Title.Heads titles ts

lemma Rule.rank_of_isTitled {rule : Rule} (titled : rule.isTitled) : Rule.step.rank ≤ rule.rank := by
  cases rule <;> first | decide | cases titled

lemma TitlesTraced.plain {e : RegularExpression Part} {ts : List Tree} (fits : Fits e ts)
    (low : ∀ a ∈ Shape.letters e, a.rank < Rule.step.rank) : TitlesTraced [] ts :=
  .of_rank_lt (fits.rank_lt low) fun _ => Rule.rank_of_isTitled

lemma Step.titled {s : Step} (formed : s.IsFormed) (lexed : ∀ i ∈ s.items, i.IsLexed) :
    TitlesTraced [.step s] [s.tree] :=
  .part ⟨formed.line, rfl⟩
    (.of_rank_lt (Step.fits_tree formed lexed).rank_lt_of_node fun _ => Rule.rank_of_isTitled)

lemma Entry.titled {α : Type} {entry : Entry α} {formed : α → Prop} {other : Item → Prop}
    {items : α → List Item} {titles : α → List Title} {member : α → Tree}
    (all : entry.All formed other) (lexed : ∀ i ∈ entry.items items, i.IsLexed)
    (placed : ∀ a, formed a → (∀ i ∈ items a, i.IsLexed) → TitlesTraced (titles a) [member a]) :
    TitlesTraced (entry.parts titles) (entry.trees member) := by
  cases entry with
  | placed a => exact placed a all lexed
  | stray i => exact .leaves i.tokens

lemma Steps.titled {s : Steps} (formed : s.IsFormed) (lexed : ∀ i ∈ s.items, i.IsLexed) :
    TitlesTraced s.titles [s.tree] := by
  refine .node _ rfl _ _ (.flatMap fun e he => ?_)
  exact Entry.titled (formed e he) (fun i hi => lexed i (List.mem_flatMap.mpr ⟨e, he, hi⟩))
    fun _ => Step.titled

lemma Heading.titled {h : Heading} (formed : h.IsFormed) (lexed : ∀ i ∈ h.items, i.IsLexed) :
    TitlesTraced [] h.trees :=
  .plain (Heading.fits_trees (p := fun _ => true) formed lexed rfl) (by decide)

lemma Title.heads_section {h : Heading} {rule : Rule} (kind : rule.isHeadedBy h.kind)
    (anchor : Mark) (recovered : Bool) (below : List Tree) :
    (heading h).Heads (node rule anchor recovered (h.trees ++ below)) :=
  ⟨rule, [], below, rfl, kind, rfl, List.forall_mem_nil _⟩

lemma Heading.titled_section (rule : Rule) {h : Heading} (formed : h.IsFormed)
    (lexed : ∀ i ∈ h.items, i.IsLexed) (kind : rule.isHeadedBy h.kind) (anchor : Mark) (recovered : Bool)
    {titles : List Title} {below : List Tree} (inner : TitlesTraced titles below) :
    TitlesTraced (.heading h :: titles) [node rule anchor recovered (h.trees ++ below)] :=
  .part (Title.heads_section kind anchor recovered below) ((Heading.titled formed lexed).append inner)

lemma Examples.titled {e : Examples} (formed : e.IsFormed) (lexed : ∀ i ∈ e.items, i.IsLexed) :
    TitlesTraced e.titles [e.tree] := by
  obtain ⟨heading, rows⟩ := List.forall_mem_append.mp lexed
  refine Heading.titled_section .examples formed.heading heading formed.kind _ _ ?_
  exact .plain (Line.fits_tableTrees (Item.isLexed_of_map_line rows) formed.rows) (by decide)

lemma Scenario.isHeadedBy_rule {s : Scenario} (formed : s.IsFormed) :
    s.rule.isHeadedBy s.heading.kind := by
  rw [rule, isOutline]
  split
  next outline => exact outline
  next plain =>
    have kind := formed.kind
    simp only [decide_eq_true_eq] at plain
    simpa [Rule.isHeadedBy, TokenKind.isScenario, plain] using kind

lemma Scenario.titled {s : Scenario} (formed : s.IsFormed) (lexed : ∀ i ∈ s.items, i.IsLexed) :
    TitlesTraced s.titles [s.tree] := by
  obtain ⟨front, examples⟩ := List.forall_mem_append.mp lexed
  obtain ⟨heading, steps⟩ := List.forall_mem_append.mp front
  refine Heading.titled_section s.rule formed.heading heading (isHeadedBy_rule formed) _ _ ?_
  refine (Steps.titled formed.steps steps).append (.map fun e he => ?_)
  exact Examples.titled (formed.examples e he) fun i hi => examples i (List.mem_flatMap.mpr ⟨e, he, hi⟩)

lemma Scenarios.titled {s : Scenarios} (formed : s.IsFormed) (lexed : ∀ i ∈ s.items, i.IsLexed) :
    TitlesTraced s.titles [s.tree] := by
  refine .node _ rfl _ _ (.flatMap fun e he => ?_)
  exact Entry.titled (formed e he) (fun i hi => lexed i (List.mem_flatMap.mpr ⟨e, he, hi⟩))
    fun _ => Scenario.titled

lemma Background.titled {b : Background} (formed : b.IsFormed) (lexed : ∀ i ∈ b.items, i.IsLexed) :
    TitlesTraced b.titles [b.tree] := by
  obtain ⟨heading, steps⟩ := List.forall_mem_append.mp lexed
  refine Heading.titled_section .background formed.heading heading ?_ _ _ (Steps.titled formed.steps steps)
  exact decide_eq_true formed.kind

lemma Background.titled_option {o : Option Background} (formed : ∀ b ∈ o, b.IsFormed)
    (lexed : ∀ i ∈ o.toList.flatMap items, i.IsLexed) :
    TitlesTraced (o.toList.flatMap titles) (o.toList.map tree) :=
  .map fun b hb => titled (formed b (by simpa using hb)) fun i hi =>
    lexed i (List.mem_flatMap.mpr ⟨b, hb, hi⟩)

lemma BusinessRule.titled {r : BusinessRule} (formed : r.IsFormed)
    (lexed : ∀ i ∈ r.items, i.IsLexed) : TitlesTraced r.titles [r.tree] := by
  obtain ⟨front, scenarios⟩ := List.forall_mem_append.mp lexed
  obtain ⟨heading, background⟩ := List.forall_mem_append.mp front
  refine Heading.titled_section .businessRule formed.heading heading (decide_eq_true formed.kind) _ _
    ?_
  exact (Background.titled_option formed.background background).append
    (Scenarios.titled formed.scenarios scenarios)

lemma Content.titled {c : Content} (anchor : Mark) (formed : c.IsFormed)
    (lexed : ∀ i ∈ c.items, i.IsLexed) : TitlesTraced c.titles [c.tree anchor] := by
  cases c with
  | scenarios s => exact Scenarios.titled formed lexed
  | rules es =>
    refine .node _ rfl _ _ (.flatMap fun e he => ?_)
    exact Entry.titled (formed.2 e he)
      (fun i hi => lexed i (List.mem_flatMap.mpr ⟨e, he, hi⟩)) fun _ => BusinessRule.titled

namespace Feature

variable {f : Feature}

lemma titled_headingTrees (formed : f.IsFormed) (lexed : ∀ i ∈ f.items, i.IsLexed) :
    TitlesTraced [] f.opening.headingTrees := by
  rw [Opening.headingTrees]
  cases found : f.opening.heading with
  | none =>
    exact ((Traced.leaves []).node .name rfl f.opening.anchor false).append
      ((Traced.leaves []).node .description rfl f.opening.anchor false)
  | some h =>
    refine Heading.titled (formed.heading h found).1 fun i hi => lexed i ?_
    simp [items, found, hi]

theorem titled_children (formed : f.IsFormed) (lexed : ∀ i ∈ f.items, i.IsLexed) :
    TitlesTraced f.innerTitles f.tree.children := by
  obtain ⟨front, content⟩ := List.forall_mem_append.mp lexed
  obtain ⟨-, background⟩ := List.forall_mem_append.mp front
  have junk : TitlesTraced [] (f.opening.junk.flatMap Line.tokenTrees) := by
    have skipped : TitlesTraced [] ((f.opening.junk.flatMap Line.tokens).map leaf) := .leaves _
    rwa [List.map_flatMap] at skipped
  have body : TitlesTraced f.innerTitles [f.bodyTree] :=
    ((Background.titled_option formed.background background).append
      (Content.titled f.anchor formed.content content)).node _ rfl _ _
  exact (junk.append (titled_headingTrees formed lexed)).append body

lemma heads_tree (formed : f.IsFormed) {h : Heading} (found : h ∈ f.opening.heading) :
    (Title.heading h).Heads f.tree := by
  refine ⟨.feature, f.opening.junk.flatMap Line.tokens, [f.bodyTree], rfl,
    decide_eq_true (formed.heading h found).2, ?_, fun t ht => ?_⟩
  · have skipped : f.opening.junk.flatMap Line.tokenTrees =
        (f.opening.junk.flatMap Line.tokens).map leaf := by
      rw [List.map_flatMap]
      rfl
    rw [tree, Tree.children, skipped, Opening.headingTrees, Option.mem_def.mp found,
      List.append_assoc]
  · obtain ⟨l, hl, ht⟩ := List.mem_flatMap.mp ht
    have other := formed.junk l hl t ht
    refine decide_eq_false fun kind => ?_
    rw [kind] at other
    cases other

end Feature

end FeatureFile
