import FeatureFile.Proofs.Alike.Remarks
import FeatureFile.Proofs.Document.Warnings
import FeatureFile.Proofs.Tree.Sections
import FeatureFile.View.Table

namespace FeatureFile

open FeatureFile.Tree (leaf node built nodesOf Fits)

namespace View

/-- The warnings on the rows below the head of a table that have another length than the head. -/
def uneven (v : View .table) : List Diagnostic :=
  match v.head? with
  | none => []
  | some head => (v.rows.zipIdx 1).filterMap fun (row, number) =>
    if row.cells.length = head.cells.length then none
    else some (.of (.unevenRow number head.cells.length row.cells.length)
      row.tree.start row.tree.stop.offset)

lemma severity_of_mem_uneven {v : View .table} {d : Diagnostic} (h : d ∈ v.uneven) :
    d.severity = .warning := by
  rw [uneven] at h
  split at h
  · cases h
  · obtain ⟨⟨row, number⟩, -, here⟩ := List.mem_filterMap.mp h
    obtain ⟨-, here⟩ := Option.ite_none_left_eq_some.mp here
    exact Option.some.inj here ▸ rfl

lemma cast?_eq_some {rule : Rule} {t : Tree} (h : t.ofRule rule = true) :
    cast? rule t = some ⟨t, h⟩ :=
  dif_pos h

lemma cast?_eq_none {rule : Rule} {t : Tree} (h : ¬ t.ofRule rule = true) :
    cast? rule t = none :=
  dif_neg h

end View

namespace Tree

def tablesOf (ts : List Tree) : List (View .table) :=
  (nodesOf ts).filterMap (View.cast? .table)

def tables (t : Tree) : List (View .table) :=
  t.descendants.filterMap (View.cast? .table)

def rowsOf (ts : List Tree) : List (View .tableRow) :=
  ((nodesOf ts).filterMap (View.cast? .tableRows)).flatMap (·.childrenOf .tableRow)

def bodyRows (t : Tree) : List (View .tableRow) :=
  (t.descendants.filterMap (View.cast? .tableRows)).flatMap (·.childrenOf .tableRow)

@[simp] lemma tablesOf_append (ts us : List Tree) :
    tablesOf (ts ++ us) = tablesOf ts ++ tablesOf us := by
  simp [tablesOf]

@[simp] lemma rowsOf_append (ts us : List Tree) : rowsOf (ts ++ us) = rowsOf ts ++ rowsOf us := by
  simp [rowsOf]

lemma filterMap_cast?_eq_nil {rule : Rule} {n : Nat} {ts : List Tree} (high : n ≤ rule.rank)
    (low : ∀ m ∈ nodesOf ts, m.rank < n) : (nodesOf ts).filterMap (View.cast? rule) = [] := by
  refine List.filterMap_eq_nil_iff.mpr fun m hm => View.cast?_eq_none fun here => ?_
  have rank := rank_of_ofRule here
  have below := low m hm
  omega

end Tree

namespace Remark

def uneven (rs : List Remark) : List Diagnostic :=
  (rs.filterMap diagnostic?).filter (·.fault.isUneven)

@[simp] lemma uneven_nil : uneven [] = [] :=
  rfl

@[simp] lemma uneven_append (rs rs' : List Remark) : uneven (rs ++ rs') = uneven rs ++ uneven rs' := by
  simp [uneven]

lemma uneven_flatMap {α : Type} (r : α → List Remark) (as : List α) :
    uneven (as.flatMap r) = as.flatMap fun a => uneven (r a) := by
  induction as with
  | nil => rfl
  | cons a as ih => simp [ih]

lemma uneven_cons_atToken {f : Fault} (even : f.isUneven = false) (t : Token) (rs : List Remark) :
    uneven (.atToken f t :: rs) = uneven rs := by
  simp [uneven, atToken, diagnostic?, Diagnostic.atToken, Diagnostic.of, even]

end Remark

open Remark (uneven)

/-- The trees of items and the remarks on them agree on the tables: the warnings are those that can
be read off the tables, in the order of the lines with rows, and rows stand in tables only. -/
structure Tabulates (items : List Item) (ts : List Tree) (rs : List Remark) : Prop where
  warnings : uneven rs = (Tree.tablesOf ts).flatMap View.uneven
  order : ((uneven rs).map (·.start)).Sublist
    ((items.filter (·.kind = .pipe)).map (·.head.start))
  heads : ∀ v ∈ Tree.tablesOf ts, v.head?.isSome
  rows : Tree.rowsOf ts = (Tree.tablesOf ts).flatMap View.rows

namespace Tabulates

variable {items items' : List Item} {ts us : List Tree} {rs rs' : List Remark}

lemma nil : Tabulates [] [] [] :=
  ⟨rfl, .slnil, List.forall_mem_nil _, rfl⟩

lemma append (h : Tabulates items ts rs) (h' : Tabulates items' us rs') :
    Tabulates (items ++ items') (ts ++ us) (rs ++ rs') where
  warnings := by simp [h.warnings, h'.warnings]
  order := by simpa using h.order.append h'.order
  heads := by simpa [or_imp, forall_and] using ⟨h.heads, h'.heads⟩
  rows := by simp [h.rows, h'.rows]

lemma flatMap {α : Type} {i : α → List Item} {f : α → List Tree} {r : α → List Remark} {as : List α}
    (h : ∀ a ∈ as, Tabulates (i a) (f a) (r a)) :
    Tabulates (as.flatMap i) (as.flatMap f) (as.flatMap r) := by
  induction as with
  | nil => exact .nil
  | cons a as ih =>
    obtain ⟨first, rest⟩ := List.forall_mem_cons.mp h
    exact first.append (ih rest)

lemma map {α : Type} {i : α → List Item} {f : α → Tree} {r : α → List Remark} {as : List α}
    (h : ∀ a ∈ as, Tabulates (i a) [f a] (r a)) :
    Tabulates (as.flatMap i) (as.map f) (as.flatMap r) := by
  have whole := flatMap h
  rwa [← List.map_eq_flatMap] at whole

lemma of_uneven (h : Tabulates items ts rs) (same : uneven rs = uneven rs') :
    Tabulates items ts rs' :=
  ⟨same ▸ h.warnings, same ▸ h.order, h.heads, h.rows⟩

lemma plain {e : RegularExpression Part} (items : List Item) (fits : Fits e ts)
    (low : ∀ a ∈ Shape.letters e, a.rank < Rule.tableRows.rank) (none : uneven rs = []) :
    Tabulates items ts rs := by
  have below := fits.rank_lt low
  have tables : Tree.tablesOf ts = [] := Tree.filterMap_cast?_eq_nil (by decide) below
  have rows : Tree.rowsOf ts = [] := by
    rw [Tree.rowsOf, Tree.filterMap_cast?_eq_nil (Nat.le_refl _) below, List.flatMap_nil]
  exact ⟨by simp [none, tables], by simp [none], by simp [tables], by simp [rows, tables]⟩

lemma node {rule : Rule} (high : Rule.table.rank < rule.rank) (anchor : Mark) (recovered : Bool)
    (h : Tabulates items ts rs) : Tabulates items [node rule anchor recovered ts] rs := by
  have other (wanted : Rule) (below : wanted.rank ≤ Rule.table.rank) :
      View.cast? wanted (.node rule anchor recovered ts) = none := by
    refine View.cast?_eq_none fun here => ?_
    have rank : rule.rank = wanted.rank := Tree.rank_of_ofRule here
    omega
  have tables : Tree.tablesOf [.node rule anchor recovered ts] = Tree.tablesOf ts := by
    simp [Tree.tablesOf, other .table (by decide)]
  have rows : Tree.rowsOf [.node rule anchor recovered ts] = Tree.rowsOf ts := by
    simp [Tree.rowsOf, other .tableRows (by decide)]
  exact ⟨tables ▸ h.warnings, h.order, tables ▸ h.heads, tables ▸ rows ▸ h.rows⟩

lemma leaves (items : List Item) (tokens : List Token) (none : uneven rs = []) :
    Tabulates items (tokens.map leaf) rs := by
  have tables : Tree.tablesOf (tokens.map leaf) = [] := by simp [Tree.tablesOf]
  have rows : Tree.rowsOf (tokens.map leaf) = [] := by simp [Tree.rowsOf]
  exact ⟨by simp [none, tables], by simp [none], by simp [tables], by simp [rows, tables]⟩

end Tabulates

namespace Line

def rowView (l : Line) : View .tableRow :=
  ⟨l.rowTree, rfl⟩

lemma childrenOf_rows (ls : List Line) :
    (ls.map rowTree).filterMap (View.cast? .tableRow) = ls.map rowView := by
  rw [List.filterMap_map, ← List.filterMap_eq_map]
  rfl

lemma length_cells_rowView (l : Line) : l.rowView.cells.length = l.cellCount := by
  have cell (part : RowPart) :
      (View.cast? .tableCell (part.tree l.start)).isSome = part.isCell := by
    cases part <;> rfl
  have parts : l.rowView.cells =
      (l.rowParts.map (RowPart.tree l.start)).filterMap (View.cast? .tableCell) := rfl
  rw [parts, List.filterMap_map, List.length_filterMap_eq_countP, cellCount]
  simp only [Function.comp_apply, cell]

lemma uneven_unevenRows (expected row : Nat) (ls : List Line) :
    uneven (unevenRows ⟨true⟩ expected row ls) =
      ((ls.map rowView).zipIdx row).filterMap fun (v, number) =>
        if v.cells.length = expected then none
        else some (.of (.unevenRow number expected v.cells.length) v.tree.start
          v.tree.stop.offset) := by
  induction ls generalizing row with
  | nil => rfl
  | cons l rest ih =>
    rw [unevenRows, List.map_cons, List.zipIdx_cons, List.filterMap_cons]
    simp only [length_cells_rowView, Bool.true_and, decide_eq_true_eq]
    by_cases same : l.cellCount = expected
    · rw [if_pos same, if_neg (not_not_intro same)]
      exact ih _
    · rw [if_neg same, if_pos same]
      exact congrArg (List.cons _) (ih _)

lemma start_uneven_unevenRows (expected row : Nat) (ls : List Line) :
    ((uneven (unevenRows ⟨true⟩ expected row ls)).map (·.start)).Sublist (ls.map (·.head.start)) := by
  induction ls generalizing row with
  | nil => exact .slnil
  | cons l rest ih =>
    rw [unevenRows]
    split
    · rw [List.map_cons, ← start_rowTree]
      exact (ih _).cons_cons _
    · exact (ih _).cons _

def tableView (l : Line) (rest : List Line) : View .table :=
  ⟨built .table l.start
    [built .tableHead l.start [l.rowTree], built .tableRows l.stop (rest.map rowTree)], rfl⟩

lemma head?_tableView (l : Line) (rest : List Line) : (tableView l rest).head? = some l.rowView :=
  rfl

lemma rows_tableView (l : Line) (rest : List Line) :
    (tableView l rest).rows = rest.map rowView :=
  childrenOf_rows rest

lemma uneven_tableView (l : Line) (rest : List Line) :
    (tableView l rest).uneven = uneven (tableRemarks ⟨true⟩ (l :: rest)) := by
  rw [tableRemarks, ← length_cells_rowView, uneven_unevenRows, View.uneven, head?_tableView,
    rows_tableView]

variable {l : Line} {rest : List Line}

lemma filterMap_cast?_tableTrees (low : ∀ l' ∈ l :: rest, ∀ m ∈ nodesOf [l'.rowTree],
      m.rank < Rule.tableRows.rank) :
    Tree.tablesOf (tableTrees (l :: rest)) = [tableView l rest] ∧
      Tree.rowsOf (tableTrees (l :: rest)) = (tableView l rest).rows := by
  obtain ⟨first, others⟩ := List.forall_mem_cons.mp low
  have below : ∀ m ∈ nodesOf (rest.map rowTree), m.rank < Rule.tableRows.rank := by
    intro m hm
    obtain ⟨t, ht, hm⟩ := Tree.mem_nodesOf.mp hm
    obtain ⟨l', hl, rfl⟩ := List.mem_map.mp ht
    exact others l' hl m (by simpa using hm)
  have nodes : nodesOf (tableTrees (l :: rest)) =
      (tableView l rest).tree :: built .tableHead l.start [l.rowTree] :: (nodesOf [l.rowTree] ++
        built .tableRows l.stop (rest.map rowTree) :: nodesOf (rest.map rowTree)) := by
    simp [tableTrees, tableView, built]
  constructor
  · rw [Tree.tablesOf, nodes, List.filterMap_cons_some (View.cast?_eq_some (tableView l rest).ofRule),
      List.filterMap_cons_none rfl, List.filterMap_append, List.filterMap_cons_none rfl,
      Tree.filterMap_cast?_eq_nil (by decide) first, Tree.filterMap_cast?_eq_nil (by decide) below]
    rfl
  · rw [Tree.rowsOf, nodes, List.filterMap_cons_none rfl, List.filterMap_cons_none rfl,
      List.filterMap_append, List.filterMap_cons_some (View.cast?_eq_some rfl),
      Tree.filterMap_cast?_eq_nil (Nat.le_refl _) first,
      Tree.filterMap_cast?_eq_nil (Nat.le_refl _) below]
    exact List.append_nil _

lemma tabulates_tableTrees {ls : List Line} (lexed : ∀ l ∈ ls, l.IsLexed)
    (bars : ∀ l ∈ ls, l.kind = .pipe) :
    Tabulates (ls.map .line) (tableTrees ls) (tableRemarks ⟨true⟩ ls) := by
  cases ls with
  | nil => exact .nil
  | cons l rest =>
    obtain ⟨tables, rows⟩ := filterMap_cast?_tableTrees fun l' hl =>
      (fits_rowTree (lexed l' hl) (bars l' hl)).rank_lt (n := Rule.tableRows.rank) (by decide)
    refine ⟨by simp [tables, uneven_tableView], ?_, by simp [tables, head?_tableView],
      by simp [tables, rows]⟩
    have starts := start_uneven_unevenRows l.cellCount 1 rest
    have all : ((l :: rest).map Item.line).filter (·.kind = .pipe) = (l :: rest).map .line :=
      List.filter_eq_self.mpr (List.forall_mem_map.mpr fun l' hl => decide_eq_true (bars l' hl))
    rw [all, List.map_map]
    exact starts.cons _

end Line

lemma TagPart.uneven_remarks (reported : Bool) (parts : List TagPart) :
    uneven (remarks reported parts) = [] := by
  fun_induction remarks reported parts with
  | case1 => rfl
  | case2 reported sign rest ih => rw [Remark.uneven_cons_atToken rfl, ih]
  | case3 reported sign name rest ih => exact ih
  | case4 token rest ih => exact ih
  | case5 token rest ih => rw [Remark.uneven_cons_atToken rfl, ih]

lemma Line.uneven_tagRemarks (ls : List Line) : uneven (tagRemarks ls) = [] := by
  rw [tagRemarks, Remark.uneven_flatMap]
  simp [TagPart.uneven_remarks]

lemma Block.uneven_remarks (b : Block) : uneven b.remarks = [] := by
  rw [remarks]
  split <;> rfl

lemma Step.tabulates {s : Step} (formed : s.IsFormed) (lexed : ∀ i ∈ s.items, i.IsLexed) :
    Tabulates s.items [s.tree] (s.remarks ⟨true⟩) := by
  have front := Tabulates.plain [.line s.line] (fits_front formed lexed) (by decide)
    Remark.uneven_nil
  have quiet : uneven (s.block.toList.flatMap Block.remarks) = [] := by
    simp [Remark.uneven_flatMap, Block.uneven_remarks]
  have between := Tabulates.plain (s.block.toList.map .block) (fits_block lexed) (by decide) quiet
  have table := Line.tabulates_tableTrees (isLexed_rows lexed) formed.rows
  exact (front.append (between.append table)).node (by decide) _ _

lemma Entry.tabulates {α : Type} {entry : Entry α} {formed : α → Prop} {other : Item → Prop}
    {items : α → List Item} {member : α → Tree} {remarks : α → List Remark}
    (all : entry.All formed other) (lexed : ∀ i ∈ entry.items items, i.IsLexed) (context : Rule)
    (placed : ∀ a, formed a → (∀ i ∈ items a, i.IsLexed) →
      Tabulates (items a) [member a] (remarks a)) :
    Tabulates (entry.items items) (entry.trees member) (entry.remarks context remarks) := by
  cases entry with
  | placed a => exact placed a all lexed
  | stray i => exact .leaves _ _ (Remark.uneven_cons_atToken rfl _ _)

lemma Steps.tabulates {s : Steps} (formed : s.IsFormed) (lexed : ∀ i ∈ s.items, i.IsLexed) :
    Tabulates s.items [s.tree] (s.remarks ⟨true⟩) := by
  refine .node (by decide) _ _ (.flatMap fun e he => ?_)
  exact Entry.tabulates (formed e he) (fun i hi => lexed i (List.mem_flatMap.mpr ⟨e, he, hi⟩)) _
    fun _ => Step.tabulates

lemma Heading.tabulates {h : Heading} (formed : h.IsFormed) (lexed : ∀ i ∈ h.items, i.IsLexed) :
    Tabulates h.items h.trees h.remarks :=
  .plain _ (fits_trees (p := fun _ => true) formed lexed rfl) (by decide)
    (Line.uneven_tagRemarks h.tags)

lemma Examples.tabulates {e : Examples} (formed : e.IsFormed) (lexed : ∀ i ∈ e.items, i.IsLexed) :
    Tabulates e.items [e.tree] (e.remarks ⟨true⟩) := by
  obtain ⟨heading, rows⟩ := List.forall_mem_append.mp lexed
  have inner := (Heading.tabulates formed.heading heading).append
    (Line.tabulates_tableTrees (Item.isLexed_of_map_line rows) formed.rows)
  refine (inner.of_uneven ?_).node (by decide) _ _
  rw [remarks, Remark.uneven_append, Remark.uneven_append]
  cases e.rows with
  | nil => rfl
  | cons l rest => rfl

namespace Scenario

lemma uneven_examplesRemarks (s : Scenario) :
    uneven (s.examplesRemarks ⟨true⟩) =
      uneven (s.examples.flatMap (Examples.remarks ⟨true⟩)) := by
  rw [examplesRemarks]
  split
  case isTrue => cases s.examples <;> rfl
  case isFalse =>
    have quiet (t : Token) (rs : List Remark) := Remark.uneven_cons_atToken
      (f := .misplacedExamples) rfl t rs
    simp only [Remark.uneven_flatMap, quiet]

lemma tabulates {s : Scenario} (formed : s.IsFormed) (lexed : ∀ i ∈ s.items, i.IsLexed) :
    Tabulates s.items [s.tree] (s.remarks ⟨true⟩) := by
  obtain ⟨front, examples⟩ := List.forall_mem_append.mp lexed
  obtain ⟨heading, steps⟩ := List.forall_mem_append.mp front
  have below : Tabulates _ _ _ := .map fun e he => Examples.tabulates (formed.examples e he)
    fun i hi => examples i (List.mem_flatMap.mpr ⟨e, he, hi⟩)
  have inner := ((Heading.tabulates formed.heading heading).append
    (Steps.tabulates formed.steps steps)).append below
  have high : Rule.table.rank < s.rule.rank := by
    rw [rule]
    split <;> decide
  have same : uneven (s.remarks ⟨true⟩) = uneven (s.heading.remarks ++ s.steps.remarks ⟨true⟩ ++
      s.examples.flatMap (Examples.remarks ⟨true⟩)) := by
    simp only [remarks, Remark.uneven_append, uneven_examplesRemarks]
  rw [List.append_assoc s.heading.trees] at inner
  exact (inner.of_uneven same.symm).node high _ _

end Scenario

lemma Scenarios.tabulates {s : Scenarios} (formed : s.IsFormed) (lexed : ∀ i ∈ s.items, i.IsLexed) :
    Tabulates s.items [s.tree] (s.remarks ⟨true⟩) := by
  refine .node (by decide) _ _ (.flatMap fun e he => ?_)
  exact Entry.tabulates (formed e he) (fun i hi => lexed i (List.mem_flatMap.mpr ⟨e, he, hi⟩)) _
    fun _ => Scenario.tabulates

lemma Background.tabulates {b : Background} (formed : b.IsFormed)
    (lexed : ∀ i ∈ b.items, i.IsLexed) : Tabulates b.items [b.tree] (b.remarks ⟨true⟩) := by
  obtain ⟨heading, steps⟩ := List.forall_mem_append.mp lexed
  exact ((Heading.tabulates formed.heading heading).append
    (Steps.tabulates formed.steps steps)).node (by decide) _ _

lemma Background.tabulates_option {o : Option Background} (formed : ∀ b ∈ o, b.IsFormed)
    (lexed : ∀ i ∈ o.toList.flatMap items, i.IsLexed) :
    Tabulates (o.toList.flatMap items) (o.toList.map tree) (o.toList.flatMap (remarks ⟨true⟩)) :=
  .map fun b hb => tabulates (formed b (by simpa using hb))
    fun i hi => lexed i (List.mem_flatMap.mpr ⟨b, hb, hi⟩)

lemma BusinessRule.tabulates {r : BusinessRule} (formed : r.IsFormed)
    (lexed : ∀ i ∈ r.items, i.IsLexed) : Tabulates r.items [r.tree] (r.remarks ⟨true⟩) := by
  obtain ⟨front, scenarios⟩ := List.forall_mem_append.mp lexed
  obtain ⟨heading, background⟩ := List.forall_mem_append.mp front
  have inner := ((Heading.tabulates formed.heading heading).append
    (Background.tabulates_option formed.background background)).append
    (Scenarios.tabulates formed.scenarios scenarios)
  rw [List.append_assoc r.heading.trees] at inner
  exact inner.node (by decide) _ _

lemma Content.tabulates {c : Content} (anchor : Mark) (formed : c.IsFormed)
    (lexed : ∀ i ∈ c.items, i.IsLexed) : Tabulates c.items [c.tree anchor] (c.remarks ⟨true⟩) := by
  cases c with
  | scenarios s => exact Scenarios.tabulates formed lexed
  | rules es =>
    obtain ⟨rs, rfl, -, each⟩ := formed.rules_eq
    rw [items_rules] at lexed ⊢
    rw [tree_rules, remarks_rules]
    refine .node (by decide) _ _ (.map fun r hr => ?_)
    exact BusinessRule.tabulates (each r hr) fun i hi => lexed i (List.mem_flatMap.mpr ⟨r, hr, hi⟩)

namespace Feature

lemma tabulates_headingTrees {f : Feature} (formed : f.IsFormed)
    (lexed : ∀ i ∈ f.opening.heading.toList.flatMap Heading.items, i.IsLexed) :
    Tabulates (f.opening.heading.toList.flatMap Heading.items) f.opening.headingTrees
      (f.opening.heading.toList.flatMap Heading.remarks) := by
  refine .plain _ (fits_headingTrees formed lexed) (by decide) ?_
  simp [Remark.uneven_flatMap, Heading.remarks, Line.uneven_tagRemarks]

theorem tabulates_children {f : Feature} (formed : f.IsFormed) (lexed : ∀ i ∈ f.items, i.IsLexed) :
    Tabulates f.items f.tree.children (f.remarks ⟨true⟩) := by
  obtain ⟨front, content⟩ := List.forall_mem_append.mp lexed
  obtain ⟨heading, background⟩ := List.forall_mem_append.mp front
  have junk : Tabulates [] (f.opening.junk.flatMap Line.tokenTrees) [] := by
    have skipped := Tabulates.leaves [] (f.opening.junk.flatMap Line.tokens) Remark.uneven_nil
    rwa [List.map_flatMap] at skipped
  have body : Tabulates _ [f.bodyTree] _ := ((Background.tabulates_option formed.background
    background).append (Content.tabulates f.anchor formed.content content)).node (by decide) _ _
  have missing : uneven (f.opening.missing.toList.map MissingHeader.remark) = [] := by
    cases f.opening.missing <;> rfl
  have same : uneven (f.remarks ⟨true⟩) =
      uneven (f.opening.heading.toList.flatMap Heading.remarks ++
        (f.background.toList.flatMap (Background.remarks ⟨true⟩) ++ f.content.remarks ⟨true⟩)) := by
    simp only [remarks, Opening.remarks, Remark.uneven_append, missing, List.nil_append,
      List.append_assoc]
  have whole := (junk.append (tabulates_headingTrees formed heading)).append body
  rw [List.nil_append, List.nil_append] at whole
  have split : f.items = _ := List.append_assoc ..
  rw [split]
  exact whole.of_uneven same.symm

end Feature

end FeatureFile
