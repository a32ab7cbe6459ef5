import FeatureFile.Parse
import FeatureFile.Proofs.Tree.ShapedLines

namespace FeatureFile

open FeatureFile.Tree (leaf built Fits)

namespace Item

lemma isLexed_of_map_line {ls : List Line} (h : ∀ i ∈ ls.map line, i.IsLexed) :
    ∀ l ∈ ls, l.IsLexed :=
  fun l hl => (h (line l) (List.mem_map_of_mem hl)).1

end Item

namespace Step

variable {s : Step}

lemma isLexed_rows (lexed : ∀ i ∈ s.items, i.IsLexed) : ∀ l ∈ s.rows, l.IsLexed :=
  Item.isLexed_of_map_line (List.forall_mem_append.mp (List.forall_mem_cons.mp lexed).2).2

lemma fits_name (formed : s.IsFormed) (lexed : ∀ i ∈ s.items, i.IsLexed) :
    Fits (Shape.child .name) [Line.nameTree s.line.head s.line.tail] :=
  Line.fits_nameTree s.line.head ((List.forall_mem_cons.mp lexed).1.1.step formed.line)

lemma fits_front (formed : s.IsFormed) (lexed : ∀ i ∈ s.items, i.IsLexed) :
    Fits (Shape.token TokenKind.isStep * Shape.child .name)
      ([leaf s.line.head] ++ [Line.nameTree s.line.head s.line.tail]) :=
  (Fits.leaf formed.line).mul (fits_name formed lexed)

lemma fits_block (lexed : ∀ i ∈ s.items, i.IsLexed) :
    Fits (Shape.opt (Shape.child .docStrings)) (s.block.toList.map Block.tree) := by
  obtain ⟨-, others⟩ := List.forall_mem_cons.mp lexed
  obtain ⟨block, -⟩ := List.forall_mem_append.mp others
  exact .opt_map fun b hb => Block.fits_tree (block (.block b) (by simpa using hb))

lemma fits_tree (formed : s.IsFormed) (lexed : ∀ i ∈ s.items, i.IsLexed) :
    Fits (Shape.child .step) [s.tree] := by
  have table := Line.fits_tableTrees (isLexed_rows lexed) formed.rows
  refine .built _ ?_
  simpa [Rule.shape] using ((fits_front formed lexed).mul (fits_block lexed)).mul table

end Step

lemma Entry.fits_trees {α : Type} {entry : Entry α} {e : RegularExpression Part}
    {p : TokenKind → Bool} {formed : α → Prop} {other : Item → Prop} {items : α → List Item}
    {member : α → Tree} (all : entry.All formed other)
    (lexed : ∀ i ∈ entry.items items, i.IsLexed)
    (placed : ∀ a, formed a → (∀ i ∈ items a, i.IsLexed) → Fits e [member a])
    (stray : ∀ i, other i → i.IsLexed → ∀ t ∈ i.tokens, p t.kind) :
    Fits (.star (e + Shape.token p)) (entry.trees member) := by
  cases entry with
  | placed a => exact .once (.left (placed a all lexed))
  | stray i =>
    have item := lexed i (by simp [Entry.items])
    exact .star_map fun t ht => .right (.leaf (stray i all item t ht))

lemma Steps.fits_tree {s : Steps} (formed : s.IsFormed) (lexed : ∀ i ∈ s.items, i.IsLexed) :
    Fits (Shape.child .steps) [s.tree] := by
  refine .node _ (.star_flatMap fun e he => ?_)
  exact Entry.fits_trees (formed e he) (fun i hi => lexed i (List.mem_flatMap.mpr ⟨e, he, hi⟩))
    (fun _ => Step.fits_tree) fun _ aside lexed => lexed.isLoose aside

namespace Heading

variable {h : Heading} {p : TokenKind → Bool}

lemma fits_header (formed : h.IsFormed) (lexed : ∀ i ∈ h.items, i.IsLexed) (kind : p h.kind) :
    Fits (Shape.header p) (h.header.headerTrees ++ [h.descriptionTree]) := by
  obtain ⟨-, below⟩ := List.forall_mem_append.mp lexed
  obtain ⟨header, prose⟩ := List.forall_mem_cons.mp below
  have text : Fits (Shape.child .description) [h.descriptionTree] := by
    refine .built _ (.star_flatMap fun l hl => .leaves fun t ht => ?_)
    have line := Item.isLexed_of_map_line prose l hl
    simpa using line.prose (formed.description l hl) t ht
  exact (Line.fits_headerTrees header.1 formed.header kind).mul text

lemma fits_trees (formed : h.IsFormed) (lexed : ∀ i ∈ h.items, i.IsLexed) (kind : p h.kind) :
    Fits (Shape.heading p) h.trees := by
  obtain ⟨tags, -⟩ := List.forall_mem_append.mp lexed
  rw [trees, List.append_assoc]
  exact (Line.fits_tagTrees (Item.isLexed_of_map_line tags) formed.tags).mul
    (fits_header formed lexed kind)

end Heading

lemma Examples.fits_tree {e : Examples} (formed : e.IsFormed) (lexed : ∀ i ∈ e.items, i.IsLexed) :
    Fits (Shape.child .examples) [e.tree] := by
  obtain ⟨heading, rows⟩ := List.forall_mem_append.mp lexed
  exact .node _ ((Heading.fits_trees formed.heading heading formed.kind).mul
    (Line.fits_tableTrees (Item.isLexed_of_map_line rows) formed.rows))

lemma Scenario.fits_tree {s : Scenario} (formed : s.IsFormed) (lexed : ∀ i ∈ s.items, i.IsLexed) :
    Fits (Shape.child .scenario + Shape.child .scenarioOutline) [s.tree] := by
  obtain ⟨front, examples⟩ := List.forall_mem_append.mp lexed
  obtain ⟨heading, steps⟩ := List.forall_mem_append.mp front
  have below : Fits (.star (Shape.child .examples)) (s.examples.map Examples.tree) :=
    .star_map fun e he => Examples.fits_tree (formed.examples e he)
      fun i hi => examples i (List.mem_flatMap.mpr ⟨e, he, hi⟩)
  have whole {p : TokenKind → Bool} (kind : p s.heading.kind) :=
    ((Heading.fits_trees formed.heading heading kind).mul
      (Steps.fits_tree formed.steps steps)).mul below
  rw [tree, rule, isOutline]
  by_cases outline : s.heading.kind = .header .outline
  · simp only [outline, decide_true, if_true]
    refine .right (.node _ ?_)
    simpa [Rule.shape] using whole (p := (· = .header .outline)) (by simp [outline])
  · have plain : s.heading.kind = .header .scenario ∨ s.heading.kind = .header .example := by
      simpa [TokenKind.isScenario, outline] using formed.kind
    simp only [outline, decide_false, Bool.false_eq_true, if_false]
    refine .left (.node _ ?_)
    simpa [Rule.shape] using
      whole (p := fun k => k = .header .scenario || k = .header .example) (by simpa using plain)

lemma Scenarios.fits_tree {s : Scenarios} (formed : s.IsFormed)
    (lexed : ∀ i ∈ s.items, i.IsLexed) : Fits (Shape.child .scenarios) [s.tree] := by
  refine .node _ (.star_flatMap fun e he => ?_)
  refine Entry.fits_trees (formed e he) (fun i hi => lexed i (List.mem_flatMap.mpr ⟨e, he, hi⟩))
    (fun _ => Scenario.fits_tree) fun i other lexed => ?_
  obtain ⟨rest, whole, inner⟩ := lexed.isHeader_of_mem
  rw [whole]
  refine List.forall_mem_cons.mpr ⟨by simpa [Item.kind] using other, fun t ht => ?_⟩
  have none := mt TokenKind.isHeader_of_isScenario (by simp [inner t ht] : ¬ t.kind.isHeader)
  simpa using none

lemma Background.fits_tree {b : Background} (formed : b.IsFormed)
    (lexed : ∀ i ∈ b.items, i.IsLexed) : Fits (Shape.child .background) [b.tree] := by
  obtain ⟨heading, steps⟩ := List.forall_mem_append.mp lexed
  have header := Heading.fits_header (p := (· = .header .background)) formed.heading heading
    (by simp [formed.kind])
  refine .built _ ?_
  rw [Heading.trees, formed.tags]
  exact header.mul (Steps.fits_tree formed.steps steps)

lemma Background.fits_trees {o : Option Background} (formed : ∀ b ∈ o, b.IsFormed)
    (lexed : ∀ i ∈ o.toList.flatMap items, i.IsLexed) :
    Fits (Shape.opt (Shape.child .background)) (o.toList.map tree) :=
  .opt_map fun b hb => fits_tree (formed b hb)
    fun i hi => lexed i (List.mem_flatMap.mpr ⟨b, by simpa using hb, hi⟩)

lemma BusinessRule.fits_tree {r : BusinessRule} (formed : r.IsFormed)
    (lexed : ∀ i ∈ r.items, i.IsLexed) : Fits (Shape.child .businessRule) [r.tree] := by
  obtain ⟨front, scenarios⟩ := List.forall_mem_append.mp lexed
  obtain ⟨heading, background⟩ := List.forall_mem_append.mp front
  have header := Heading.fits_trees (p := (· = .header .rule)) formed.heading heading
    (by simp [formed.kind])
  refine .built _ ?_
  rw [← List.append_assoc]
  exact (header.mul (Background.fits_trees formed.background background)).mul
    (Scenarios.fits_tree formed.scenarios scenarios)

lemma Content.fits_tree {c : Content} (anchor : Mark) (formed : c.IsFormed)
    (lexed : ∀ i ∈ c.items, i.IsLexed) :
    Fits (Shape.child .scenarios + Shape.child .businessRules) [c.tree anchor] := by
  cases c with
  | scenarios s => exact .left (Scenarios.fits_tree formed lexed)
  | rules es =>
    obtain ⟨rs, rfl, some, each⟩ := formed.rules_eq
    rw [items_rules] at lexed
    obtain ⟨r, rest, rfl⟩ := List.exists_cons_of_ne_nil some
    have all : ∀ r' ∈ r :: rest, Fits (Shape.child .businessRule) [r'.tree] :=
      fun r' hr => BusinessRule.fits_tree (each r' hr)
        fun i hi => lexed i (List.mem_flatMap.mpr ⟨r', hr, hi⟩)
    obtain ⟨first, others⟩ := List.forall_mem_cons.mp all
    rw [tree_rules]
    exact .right (.built _ (first.mul (.star_map others)))

namespace Feature

lemma fits_headingTrees {f : Feature} (formed : f.IsFormed)
    (lexed : ∀ i ∈ f.opening.heading.toList.flatMap Heading.items, i.IsLexed) :
    Fits (Shape.heading (· = .header .feature) + Shape.child .name * Shape.child .description)
      f.opening.headingTrees := by
  rw [Opening.headingTrees]
  cases here : f.opening.heading with
  | none =>
    have name : Fits (Shape.child .name) [built .name f.opening.anchor []] := .built _ .star_nil
    exact .right (name.mul (.built _ .star_nil))
  | some h =>
    obtain ⟨heading, kind⟩ := formed.heading h here
    exact .left (Heading.fits_trees heading (by simpa [here] using lexed) (by simp [kind]))

theorem fits_tree {f : Feature} (formed : f.IsFormed) (lexed : ∀ i ∈ f.items, i.IsLexed) :
    Fits (Shape.child .feature) [f.tree] := by
  obtain ⟨front, content⟩ := List.forall_mem_append.mp lexed
  obtain ⟨heading, background⟩ := List.forall_mem_append.mp front
  have junk : Fits (.star (Shape.token (!·.isSection))) (f.opening.junk.flatMap Line.tokenTrees) :=
    .star_flatMap fun l hl => .leaves fun t ht => by simpa using formed.junk l hl t ht
  have body : Fits (Shape.child .featureBody) [f.bodyTree] :=
    .built _ ((Background.fits_trees formed.background background).mul
      (Content.fits_tree f.anchor formed.content content))
  exact .node _ ((junk.mul (fits_headingTrees formed heading)).mul body)

end Feature

namespace Parsed

variable {options : Options} {text : List Char}

lemma isFormed : (parse options text).feature.IsFormed :=
  Feature.isFormed_ofLines (Stream.ofText text).eof (scanned_ofText text)

lemma isLexed : ∀ i ∈ (parse options text).feature.items, i.IsLexed :=
  Feature.isLexed_ofLines (Stream.ofText text).eof (scanned_ofText text)

lemma fits_root : Fits (Shape.child .feature) [(parse options text).root] :=
  Feature.fits_tree isFormed isLexed

/-- Every node of the tree of a text, from the root down, has the shape of its rule. -/
theorem isShaped (options : Options) (text : List Char) :
    let p := parse options text
    p.root.rule? = some .feature ∧ ∀ n ∈ p.root :: p.root.descendants, n.IsShaped := by
  refine ⟨rfl, ?_⟩
  rw [← Tree.nodesOf_singleton rfl]
  exact fits_root.nodes

end Parsed

end FeatureFile
