import FeatureFile.Proofs.Document.Seam
import FeatureFile.Proofs.Grammar.Accepts
import FeatureFile.Proofs.Locality
import FeatureFile.Proofs.Tree.Sections
import FeatureFile.Proofs.Tree.Tables
import FeatureFile.View.Section

namespace FeatureFile

open FeatureFile.Tree (leaf node built nodesOf Fits)
open Grammar (Symbol next)

namespace Item

def steps : List Item → List Step
  | [] => []
  | block _ :: rest => steps rest
  | line l :: rest => if l.kind.isStep then (Step.take l rest).1 :: steps rest else steps rest

lemma take_mem_steps {l : Line} (step : l.kind.isStep) (before below : List Item) :
    (Step.take l below).1 ∈ steps (before ++ line l :: below) := by
  induction before with
  | nil => simp [steps, step]
  | cons i before ih =>
    cases i with
    | block b => exact ih
    | line l' =>
      rw [List.cons_append, steps]
      split
      · exact List.mem_cons_of_mem _ ih
      · exact ih

lemma steps_append_of_other {items : List Item} (other : ∀ i ∈ items, i.symbol ≠ .step)
    (rest : List Item) : steps (items ++ rest) = steps rest := by
  induction items with
  | nil => rfl
  | cons i items ih =>
    obtain ⟨first, others⟩ := List.forall_mem_cons.mp other
    cases i with
    | block b => exact ih others
    | line l =>
      have word : ¬ l.kind.isStep := fun step => first (Symbol.ofKind_of_isStep step)
      rw [List.cons_append, steps, if_neg word, ih others]

lemma steps_eq_nil {items : List Item} (other : ∀ i ∈ items, i.symbol ≠ .step) :
    steps items = [] := by
  have none := steps_append_of_other other []
  rwa [List.append_nil] at none

structure StandsApart (items : List Item) : Prop where
  doc : next items ≠ some .doc
  row : next items ≠ some .row

namespace StandsApart

variable {items rest : List Item}

lemma nil : StandsApart [] :=
  ⟨by simp [next], by simp [next]⟩

lemma cons {l : Line} (fence : l.kind ≠ .fence) (bar : l.kind ≠ .pipe) (rest : List Item) :
    StandsApart (.line l :: rest) :=
  ⟨fun doc => fence ((Symbol.ofKind_eq_iff rfl).mp (Option.some.inj doc)),
    fun row => bar ((Symbol.ofKind_eq_iff rfl).mp (Option.some.inj row))⟩

lemma append (h : StandsApart items) (h' : StandsApart rest) : StandsApart (items ++ rest) := by
  cases items with
  | nil => exact h'
  | cons i items => exact ⟨h.doc, h.row⟩

lemma take_append (apart : StandsApart rest) (l : Line) (items : List Item) :
    Step.take l (items ++ rest) = ((Step.take l items).1, (Step.take l items).2 ++ rest) := by
  have stop : ∀ l' below, rest = .line l' :: below → decide (l'.kind = .pipe) = false := by
    rintro l' below rfl
    refine decide_eq_false fun bar => apart.row ?_
    exact congrArg some ((Symbol.ofKind_eq_iff rfl).mpr bar)
  have rows (items : List Item) :
      Step.takeRows (items ++ rest) = ((Step.takeRows items).1, (Step.takeRows items).2 ++ rest) :=
    Item.takeLines_append_of_stop stop items
  have block : Step.takeBlock (items ++ rest) =
      ((Step.takeBlock items).1, (Step.takeBlock items).2 ++ rest) := by
    rcases items with _ | ⟨l' | b, items⟩
    · exact Step.takeBlock_of_next apart.doc
    · rfl
    · rfl
  simp only [Step.take, block, rows]

lemma steps_append (apart : StandsApart rest) (items : List Item) :
    steps (items ++ rest) = steps items ++ steps rest := by
  induction items with
  | nil => rfl
  | cons i items ih =>
    cases i with
    | block b => exact ih
    | line l =>
      rw [List.cons_append, steps, steps, ih, apart.take_append]
      split <;> rfl

end StandsApart

end Item

open Item (StandsApart)

structure Marches (items : List Item) (ts : List Tree) : Prop where
  apart : StandsApart items
  nodes : (nodesOf ts).filter (Tree.ofRule .step) = (Item.steps items).map Step.tree

namespace Marches

variable {items items' : List Item} {ts us : List Tree}

lemma nil : Marches [] [] :=
  ⟨.nil, rfl⟩

lemma append (h : Marches items ts) (h' : Marches items' us) :
    Marches (items ++ items') (ts ++ us) where
  apart := h.apart.append h'.apart
  nodes := by
    rw [Tree.nodesOf_append, List.filter_append, h.nodes, h'.nodes, h'.apart.steps_append,
      List.map_append]

lemma flatMap {α : Type} {f : α → List Item} {g : α → List Tree} {as : List α}
    (h : ∀ a ∈ as, Marches (f a) (g a)) : Marches (as.flatMap f) (as.flatMap g) := by
  induction as with
  | nil => exact nil
  | cons a as ih =>
    obtain ⟨first, rest⟩ := List.forall_mem_cons.mp h
    exact first.append (ih rest)

lemma map {α : Type} {f : α → List Item} {g : α → Tree} {as : List α}
    (h : ∀ a ∈ as, Marches (f a) [g a]) : Marches (as.flatMap f) (as.map g) := by
  have whole := flatMap h
  rwa [← List.map_eq_flatMap] at whole

lemma node {rule : Rule} (other : rule ≠ .step) (anchor : Mark) (recovered : Bool)
    (h : Marches items ts) : Marches items [node rule anchor recovered ts] := by
  refine ⟨h.apart, ?_⟩
  rw [Tree.nodesOf_cons, Tree.nodes_node, Tree.nodesOf_nil, List.append_nil,
    List.filter_cons_of_neg (by simp [Tree.ofRule, Tree.rule?, other])]
  exact h.nodes

lemma plain {e : RegularExpression Part} (apart : StandsApart items)
    (other : ∀ i ∈ items, i.symbol ≠ .step) (fits : Fits e ts)
    (low : ∀ a ∈ Shape.letters e, a.rank < Rule.step.rank) : Marches items ts := by
  refine ⟨apart, ?_⟩
  rw [Item.steps_eq_nil other, Tree.filter_nodesOf_eq_nil (fits.rank_lt low) fun _ here =>
    Nat.le_of_eq (Tree.rank_of_ofRule here).symm]
  rfl

end Marches

lemma Item.symbol_ne_of_map_line {ls : List Line} {symbol : Symbol}
    (all : ∀ l ∈ ls, Symbol.ofKind l.kind = symbol) (other : symbol ≠ .step) :
    ∀ i ∈ ls.map Item.line, i.symbol ≠ .step := by
  intro i hi
  obtain ⟨l, hl, rfl⟩ := List.mem_map.mp hi
  exact fun step => other ((all l hl).symm.trans step)

lemma Step.marches {s : Step} (formed : s.IsFormed) (lexed : ∀ i ∈ s.items, i.IsLexed) :
    Marches s.items [s.tree] := by
  have line := formed.line
  have inner : s.line.kind ≠ .fence ∧ s.line.kind ≠ .pipe := by
    constructor <;> (intro same; simp [same, TokenKind.isStep] at line)
  have pipes : ∀ l ∈ s.rows, Symbol.ofKind l.kind = .row :=
    fun l hl => (Symbol.ofKind_eq_iff rfl).mpr (formed.rows l hl)
  have taken := Step.take_append pipes StandsApart.nil.doc StandsApart.nil.row
  have below : ∀ i ∈ s.block.toList.map Item.block ++ s.rows.map Item.line, i.symbol ≠ .step := by
    refine List.forall_mem_append.mpr ⟨fun i hi => ?_, Item.symbol_ne_of_map_line pipes (by decide)⟩
    obtain ⟨b, -, rfl⟩ := List.mem_map.mp hi
    intro step
    cases step
  have nodes := (Step.fits_tree formed lexed).rank_lt_of_node
  have none := Tree.filter_nodesOf_eq_nil nodes fun _ (here : Tree.ofRule .step _) =>
    Nat.le_of_eq (Tree.rank_of_ofRule here).symm
  rw [List.append_nil] at taken
  refine ⟨.cons inner.1 inner.2 _, ?_⟩
  rw [Step.items, Item.steps, if_pos line, taken, Item.steps_eq_nil below, Step.tree, built,
    Tree.nodesOf_cons, Tree.nodes_node, Tree.nodesOf_nil, List.append_nil,
    List.filter_cons_of_pos rfl, none]
  rfl

lemma Entry.marches {α : Type} {entry : Entry α} {formed : α → Prop} {other : Item → Prop}
    {items : α → List Item} {member : α → Tree} (all : entry.All formed other)
    (lexed : ∀ i ∈ entry.items items, i.IsLexed) (clean : entry.isFaulty member = false)
    (placed : ∀ a, formed a → (∀ i ∈ items a, i.IsLexed) → (member a).hasError = false →
      Marches (items a) [member a]) :
    Marches (entry.items items) (entry.trees member) := by
  cases entry with
  | placed a => exact placed a all lexed clean
  | stray i => cases clean

lemma Steps.marches {s : Steps} (formed : s.IsFormed) (lexed : ∀ i ∈ s.items, i.IsLexed)
    (clean : s.tree.hasError = false) : Marches s.items [s.tree] := by
  rw [hasError_tree, List.any_eq_false] at clean
  refine .node (by decide) _ _ (.flatMap fun e he => ?_)
  exact Entry.marches (formed e he) (fun i hi => lexed i (List.mem_flatMap.mpr ⟨e, he, hi⟩))
    (by simpa using clean e he) fun _ formed lexed _ => Step.marches formed lexed

namespace Heading

variable {h : Heading}

lemma standsApart (formed : h.IsFormed) (rest : List Item) : StandsApart (h.items ++ rest) := by
  obtain ⟨tags, l, ls⟩ := h
  cases tags with
  | nil =>
    have header : l.kind.isHeader := formed.header
    refine .cons ?_ ?_ _ <;> (intro same; simp [same, TokenKind.isHeader] at header)
  | cons t tags =>
    have sign := formed.tags t List.mem_cons_self
    refine .cons ?_ ?_ _ <;> simp [sign]

lemma symbol_ne_step (formed : h.IsFormed) : ∀ i ∈ h.items, i.symbol ≠ .step := by
  have tags : ∀ l ∈ h.tags, Symbol.ofKind l.kind = .tags :=
    fun l hl => (Symbol.ofKind_eq_iff rfl).mpr (formed.tags l hl)
  have prose : ∀ l ∈ h.description, Symbol.ofKind l.kind = .prose :=
    fun l hl => Symbol.ofKind_of_isProse (formed.description l hl)
  have header : Symbol.ofKind h.header.kind ≠ .step := by
    intro step
    have word : h.header.kind.isHeader := formed.header
    have other := Symbol.isStep_of_ofKind step
    cases kind : h.header.kind <;> simp [kind, TokenKind.isHeader, TokenKind.isStep] at word other
  exact List.forall_mem_append.mpr ⟨Item.symbol_ne_of_map_line tags (by decide),
    List.forall_mem_cons.mpr ⟨header, Item.symbol_ne_of_map_line prose (by decide)⟩⟩

lemma marches (formed : h.IsFormed) (lexed : ∀ i ∈ h.items, i.IsLexed) :
    Marches h.items h.trees := by
  have apart := h.standsApart formed []
  rw [List.append_nil] at apart
  have fits := fits_trees (p := fun _ => true) formed lexed rfl
  exact .plain apart (symbol_ne_step formed) fits (by decide)

end Heading

lemma Examples.marches {e : Examples} (formed : e.IsFormed) (lexed : ∀ i ∈ e.items, i.IsLexed) :
    Marches e.items [e.tree] := by
  obtain ⟨heading, rows⟩ := List.forall_mem_append.mp lexed
  have pipes : ∀ l ∈ e.rows, Symbol.ofKind l.kind = .row :=
    fun l hl => (Symbol.ofKind_eq_iff rfl).mpr (formed.rows l hl)
  have fits := (Heading.fits_trees (p := fun _ => true) formed.heading heading rfl).mul
    (Line.fits_tableTrees (Item.isLexed_of_map_line rows) formed.rows)
  refine .node (by decide) _ _ (.plain (Heading.standsApart formed.heading _) ?_ fits (by decide))
  exact List.forall_mem_append.mpr ⟨Heading.symbol_ne_step formed.heading,
    Item.symbol_ne_of_map_line pipes (by decide)⟩

lemma Scenario.marches {s : Scenario} (formed : s.IsFormed) (lexed : ∀ i ∈ s.items, i.IsLexed)
    (clean : s.tree.hasError = false) : Marches s.items [s.tree] := by
  obtain ⟨front, examples⟩ := List.forall_mem_append.mp lexed
  obtain ⟨heading, steps⟩ := List.forall_mem_append.mp front
  simp only [hasError_tree, Bool.or_eq_false_iff] at clean
  have below : Marches _ _ := .map fun e he => Examples.marches (formed.examples e he)
    fun i hi => examples i (List.mem_flatMap.mpr ⟨e, he, hi⟩)
  have inner := ((Heading.marches formed.heading heading).append
    (Steps.marches formed.steps steps clean.2.2.1)).append below
  have other : s.rule ≠ .step := by
    rw [rule]
    split <;> decide
  rw [List.append_assoc s.heading.trees] at inner
  exact inner.node other _ _

lemma Scenarios.marches {s : Scenarios} (formed : s.IsFormed) (lexed : ∀ i ∈ s.items, i.IsLexed)
    (clean : s.tree.hasError = false) : Marches s.items [s.tree] := by
  rw [hasError_tree, List.any_eq_false] at clean
  refine .node (by decide) _ _ (.flatMap fun e he => ?_)
  exact Entry.marches (formed e he) (fun i hi => lexed i (List.mem_flatMap.mpr ⟨e, he, hi⟩))
    (by simpa using clean e he) fun _ => Scenario.marches

lemma Background.marches {b : Background} (formed : b.IsFormed) (lexed : ∀ i ∈ b.items, i.IsLexed)
    (clean : b.tree.hasError = false) : Marches b.items [b.tree] := by
  obtain ⟨heading, steps⟩ := List.forall_mem_append.mp lexed
  rw [hasError_tree, Bool.or_eq_false_iff] at clean
  exact ((Heading.marches formed.heading heading).append
    (Steps.marches formed.steps steps clean.2)).node (by decide) _ _

lemma Background.marches_option {o : Option Background} (formed : ∀ b ∈ o, b.IsFormed)
    (lexed : ∀ i ∈ o.toList.flatMap items, i.IsLexed) (clean : o.any (·.tree.hasError) = false) :
    Marches (o.toList.flatMap items) (o.toList.map tree) := by
  refine .map fun b hb => ?_
  obtain rfl : o = some b := by simpa using hb
  exact marches (formed b rfl) (by simpa using lexed) clean

lemma BusinessRule.marches {r : BusinessRule} (formed : r.IsFormed)
    (lexed : ∀ i ∈ r.items, i.IsLexed) (clean : r.tree.hasError = false) :
    Marches r.items [r.tree] := by
  obtain ⟨front, scenarios⟩ := List.forall_mem_append.mp lexed
  obtain ⟨heading, background⟩ := List.forall_mem_append.mp front
  simp only [hasError_tree, Bool.or_eq_false_iff] at clean
  have inner := ((Heading.marches formed.heading heading).append
    (Background.marches_option formed.background background clean.2.1)).append
    (Scenarios.marches formed.scenarios scenarios clean.2.2)
  rw [List.append_assoc r.heading.trees] at inner
  exact inner.node (by decide) _ _

lemma Content.marches {c : Content} (anchor : Mark) (formed : c.IsFormed)
    (lexed : ∀ i ∈ c.items, i.IsLexed) (clean : (c.tree anchor).hasError = false) :
    Marches c.items [c.tree anchor] := by
  rw [hasError_tree] at clean
  cases c with
  | scenarios s => exact Scenarios.marches formed lexed clean
  | rules es =>
    refine .node (by decide) _ _ (.flatMap fun e he => ?_)
    exact Entry.marches (formed.2 e he) (fun i hi => lexed i (List.mem_flatMap.mpr ⟨e, he, hi⟩))
      (by simpa using List.any_eq_false.mp clean e he) fun _ => BusinessRule.marches

namespace Feature

lemma marches_headingTrees {f : Feature} (formed : f.IsFormed)
    (lexed : ∀ i ∈ f.opening.heading.toList.flatMap Heading.items, i.IsLexed) :
    Marches (f.opening.heading.toList.flatMap Heading.items) f.opening.headingTrees := by
  have fits := fits_headingTrees formed lexed
  cases here : f.opening.heading with
  | none => exact .plain .nil (by simp) fits (by decide)
  | some h =>
    obtain ⟨heading, -⟩ := formed.heading h here
    have apart := Heading.standsApart heading []
    exact .plain (by simpa using apart) (by simpa using Heading.symbol_ne_step heading) fits
      (by decide)

theorem marches_children {f : Feature} (formed : f.IsFormed) (lexed : ∀ i ∈ f.items, i.IsLexed)
    (clean : f.tree.hasError = false) : Marches f.items f.tree.children := by
  obtain ⟨front, content⟩ := List.forall_mem_append.mp lexed
  obtain ⟨heading, background⟩ := List.forall_mem_append.mp front
  simp only [hasError_tree, Bool.or_eq_false_iff] at clean
  have junk : Marches [] (f.opening.junk.flatMap Line.tokenTrees) := by
    refine ⟨.nil, ?_⟩
    simp [Tree.nodesOf_flatMap, Line.tokenTrees, Item.steps]
  have body : Marches _ [f.bodyTree] := ((Background.marches_option formed.background background
    clean.2.2.1).append (Content.marches f.anchor formed.content content clean.2.2.2)).node
    (by decide) _ _
  have whole := (junk.append (marches_headingTrees formed heading)).append body
  rw [List.nil_append] at whole
  have split : f.items = _ := List.append_assoc ..
  exact split ▸ whole

end Feature

def Block.view (b : Block) : View .docStrings :=
  ⟨b.tree, rfl⟩

namespace Step

def view (s : Step) : View .step :=
  ⟨s.tree, rfl⟩

variable {s : Step}

lemma stepToken?_view (step : s.line.kind.isStep) : s.view.stepToken? = some s.line.head :=
  List.find?_cons_of_pos step

lemma docStrings?_view : s.view.docStrings? = s.block.map Block.view := by
  obtain ⟨line, block, rows⟩ := s
  cases block with
  | some b => rfl
  | none => cases rows <;> rfl

lemma table?_view_of_cons {l : Line} {rest : List Line} (rows : s.rows = l :: rest) :
    s.view.table? = some (Line.tableView l rest) := by
  obtain ⟨line, block, _⟩ := s
  obtain rfl : _ = l :: rest := rows
  cases block <;> rfl

end Step

namespace Parsed

variable {options : Options} {text : List Char}

def steps (p : Parsed) : List Tree :=
  p.root.descendants.filter (Tree.ofRule .step)

lemma items_of_clean (clean : (parse options text).hasError = false) :
    (parse options text).feature.items = (Stream.ofText text).items := by
  have missing : (parse options text).feature.opening.missing = none := by
    have error := clean
    rw [hasError, root, Feature.hasError_tree, Bool.or_eq_false_iff] at error
    simpa using error.1
  have kind := Feature.kindBehindTags_of_missing (Stream.ofText text).eof missing
  rw [Stream.items, ← Opening.ofLines_skipJunk kind]
  exact Feature.items_ofLines _ _

theorem steps_of_clean (clean : (parse options text).hasError = false) :
    (parse options text).steps = (Item.steps (Stream.ofText text).items).map Step.tree := by
  rw [← items_of_clean clean, steps, Tree.descendants_eq_nodesOf]
  exact (Feature.marches_children isFormed isLexed clean).nodes

end Parsed

end FeatureFile
