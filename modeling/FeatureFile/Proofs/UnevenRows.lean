import FeatureFile.Proofs.Diagnostics
import FeatureFile.Proofs.Tree.Tables

namespace FeatureFile

open Remark (uneven)

section Sorting

variable {α : Type} {le : α → α → Bool} (trans : ∀ a b c, le a b → le b c → le a c)
  (total : ∀ a b, le a b || le b a)

include trans total

lemma mergeSort_cons_eq (a : α) (as : List α) :
    let smaller := (as.mergeSort le).filter (!le a ·)
    let larger := (as.mergeSort le).filter (le a ·)
    (a :: as).mergeSort le = smaller ++ a :: larger ∧ as.mergeSort le = smaller ++ larger := by
  obtain ⟨before, behind, whole, rest, smaller⟩ := List.mergeSort_cons trans total a as
  have sorted := List.pairwise_mergeSort trans total (a :: as)
  rw [whole] at sorted
  have larger := (List.pairwise_cons.mp (List.pairwise_append.mp sorted).2.1).1
  have front : before.filter (le a ·) = [] :=
    List.filter_eq_nil_iff.mpr fun b hb => by simpa using smaller b hb
  have back : behind.filter (!le a ·) = [] :=
    List.filter_eq_nil_iff.mpr fun b hb => by simpa using larger b hb
  rw [whole, rest]
  simp only [List.filter_append, front, back, List.filter_eq_self.mpr smaller,
    List.filter_eq_self.mpr larger, List.append_nil, List.nil_append, and_self]

lemma filter_mergeSort (p : α → Bool) (as : List α) :
    (as.mergeSort le).filter p = (as.filter p).mergeSort le := by
  induction as with
  | nil => simp
  | cons a as ih =>
    have swap (q : α → Bool) : ((as.mergeSort le).filter q).filter p =
        ((as.filter p).mergeSort le).filter q := by
      rw [← ih, List.filter_comm]
    rw [(mergeSort_cons_eq trans total a as).1, List.filter_append, swap]
    obtain ⟨placed, rest⟩ := mergeSort_cons_eq trans total a (as.filter p)
    by_cases here : p a
    · rw [List.filter_cons_of_pos here, List.filter_cons_of_pos here, swap, placed]
    · rw [List.filter_cons_of_neg here, List.filter_cons_of_neg here, swap, ← rest]

end Sorting

namespace Diagnostic

lemma filter_sort (p : Diagnostic → Bool) (ds : List Diagnostic) :
    (sort ds).filter p = sort (ds.filter p) :=
  filter_mergeSort (by simp only [decide_eq_true_eq]; omega)
    (by simp only [Bool.or_eq_true, decide_eq_true_eq]; omega) p ds

lemma sort_of_pairwise {ds : List Diagnostic}
    (sorted : ds.Pairwise (·.start.offset < ·.start.offset)) : sort ds = ds :=
  List.mergeSort_of_pairwise (sorted.imp fun before => decide_eq_true (Nat.le_of_lt before))

end Diagnostic

lemma Item.head_sublist_tokens (items : List Item) :
    (items.map head).Sublist (items.flatMap tokens) := by
  induction items with
  | nil => exact .slnil
  | cons i items ih =>
    have first : [i.head].Sublist i.tokens := by
      cases i <;> simp [head, tokens, Line.tokens, Block.tokens]
    exact first.append ih

namespace Parsed

variable {options : Options} {text : List Char}

lemma tabulates_children : Tabulates (parse options text).feature.items
    (parse options text).root.children (parse ⟨true⟩ text).remarks :=
  Feature.tabulates_children (f := (parse options text).feature) isFormed isLexed

lemma pairwise_items : ((parse options text).feature.items.map (·.head.start)).Pairwise
    (·.offset < ·.offset) := by
  have kept := (keeps_items options text).sublist
  have heads := Item.head_sublist_tokens (parse options text).feature.items
  have items := heads.trans ((List.sublist_append_right _ _).trans kept)
  have tokens := (List.pairwise_append.mp (Stream.pairwise_tokens text)).1
  have sorted := tokens.sublist items
  rw [List.pairwise_map] at sorted ⊢
  exact sorted

lemma even_of_mem_reports {s : Stream} {d : Diagnostic} (h : d ∈ s.reports.map .ofReport) :
    d.fault.isUneven = false := by
  obtain ⟨r, -, rfl⟩ := List.mem_map.mp h
  rfl

lemma filter_reported_warn (text : List Char) :
    (parse ⟨true⟩ text).reported.filter (·.fault.isUneven) =
      uneven (parse ⟨true⟩ text).remarks := by
  have none : ((parse ⟨true⟩ text).stream.reports.map Diagnostic.ofReport).filter
      (·.fault.isUneven) = [] :=
    List.filter_eq_nil_iff.mpr fun d hd => by simp [even_of_mem_reports hd]
  rw [reported, List.filter_append, none, List.nil_append, uneven]

lemma reported_calm (text : List Char) :
    (parse ⟨false⟩ text).reported =
      (parse ⟨true⟩ text).reported.filter (!·.fault.isUneven) := by
  have reports : ((Stream.ofText text).reports.map Diagnostic.ofReport).filter
      (!·.fault.isUneven) = (Stream.ofText text).reports.map .ofReport :=
    List.filter_eq_self.mpr fun d hd => by simp [even_of_mem_reports hd]
  have kept (rs : List Remark) : (rs.filter (Options.keeps ⟨false⟩)).filterMap
      Remark.diagnostic? = (rs.filterMap Remark.diagnostic?).filter (!·.fault.isUneven) := by
    rw [List.filterMap_filter, List.filter_filterMap]
    refine List.filterMap_congr fun r _ => ?_
    cases r with
    | openBlock => rfl
    | fault d => cases h : d.fault.isUneven <;>
        simp [Options.keeps, Remark.isUneven, Remark.diagnostic?, Option.filter, h]
  rw [reported, reported, List.filter_append, remarks_eq_filter, kept, stream_parse, stream_parse,
    reports]

lemma diagnostics_of_tableless
    (tableless : ∀ i ∈ (parse options text).feature.items, i.kind ≠ .pipe) :
    (parse options text).diagnostics = (parse ⟨false⟩ text).diagnostics := by
  have rows : (parse options text).feature.items.filter (·.kind = .pipe) = [] :=
    List.filter_eq_nil_iff.mpr fun i hi => by simpa using tableless i hi
  have order := (tabulates_children : Tabulates (parse options text).feature.items _ _).order
  rw [rows, List.map_nil, List.sublist_nil, List.map_eq_nil_iff] at order
  have quiet : ∀ d ∈ (parse ⟨true⟩ text).reported, !d.fault.isUneven := by
    intro d hd
    have warned := filter_reported_warn text ▸ order
    simpa using List.filter_eq_nil_iff.mp warned d hd
  rw [diagnostics, diagnostics, reported_calm, List.filter_eq_self.mpr quiet]
  obtain ⟨warn⟩ := options
  cases warn with
  | true => rfl
  | false => rw [reported_calm, List.filter_eq_self.mpr quiet]

lemma uneven_diagnostics (text : List Char) :
    (parse ⟨true⟩ text).diagnostics.filter (·.fault.isUneven) =
      (parse ⟨true⟩ text).root.tables.flatMap View.uneven := by
  have tabulates : Tabulates (parse ⟨true⟩ text).feature.items _ _ := tabulates_children
  -- The warnings are in order before they are sorted, and sorting leaves them as they are.
  have sorted := pairwise_items.sublist (tabulates.order.trans (List.filter_sublist.map _))
  rw [List.pairwise_map] at sorted
  rw [diagnostics, Diagnostic.filter_sort, filter_reported_warn, Diagnostic.sort_of_pairwise sorted,
    tabulates.warnings, Tree.tables, Tree.descendants_eq_nodesOf]
  rfl

/-- Whether uneven rows are warned of changes nothing but these warnings, and there is one for each
row below the head of a table that has another number of cells than the head. -/
theorem uneven_rows_correspond (text : List Char) :
    let p := parse ⟨true⟩ text
    let q := parse ⟨false⟩ text
    (q.root = p.root ∧ q.tokens = p.tokens ∧
        q.diagnostics = p.diagnostics.filter (!·.fault.isUneven)) ∧
      (∀ d ∈ p.diagnostics, d.fault.isUneven → d.severity = .warning) ∧
      p.diagnostics.filter (·.fault.isUneven) = p.root.tables.flatMap View.uneven ∧
      p.root.bodyRows = p.root.tables.flatMap View.rows ∧ ∀ v ∈ p.root.tables, v.head?.isSome := by
  intro p q
  have tabulates : Tabulates p.feature.items p.root.children p.remarks := tabulates_children
  have warnings := uneven_diagnostics text
  have feature : q.feature = p.feature := (feature_parse _ _).trans (feature_parse _ _).symm
  have stream : q.stream = p.stream := (stream_parse _ _).trans (stream_parse _ _).symm
  refine ⟨⟨congrArg Feature.tree feature, congrArg Stream.tokens stream, ?_⟩, fun d hd here => ?_,
    warnings, ?_, ?_⟩
  · rw [diagnostics, reported_calm, ← Diagnostic.filter_sort]
    rfl
  · have warned : d ∈ p.root.tables.flatMap View.uneven :=
      warnings ▸ List.mem_filter.mpr ⟨hd, here⟩
    obtain ⟨v, -, hd⟩ := List.mem_flatMap.mp warned
    exact View.severity_of_mem_uneven hd
  · rw [Tree.bodyRows, Tree.tables, Tree.descendants_eq_nodesOf]
    exact tabulates.rows
  · rw [Tree.tables, Tree.descendants_eq_nodesOf]
    exact tabulates.heads

end Parsed

end FeatureFile
