import FeatureFile.Document.Remarks
import FeatureFile.Proofs.Document.Partition
import FeatureFile.Proofs.Tree.Nodes

namespace FeatureFile

open FeatureFile.Tree (leaf node built anyError nodesOf IsPlain)

@[simp] lemma Diagnostic.isError_of (f : Fault) (start : Mark) (stop : Nat) :
    (of f start stop).isError = !f.isUneven := by
  cases h : f.isUneven <;> simp [of, isError, Fault.severity, h]

namespace Remark

def isError : Remark → Bool
  | fault d => d.isError
  | openBlock => true

def isStructural : Remark → Bool
  | fault d => d.severity = d.fault.severity && match d.fault with
    | .lexical _ => false
    | _ => true
  | openBlock => true

lemma isError_of_isStructural {d : Diagnostic} (structural : (fault d).isStructural) :
    d.isError = !d.fault.isUneven := by
  have severity : d.severity = d.fault.severity := by
    simp only [isStructural, Bool.and_eq_true, decide_eq_true_eq] at structural
    exact structural.1
  cases uneven : d.fault.isUneven <;> simp [Diagnostic.isError, severity, Fault.severity, uneven]

end Remark

/-- The items of a part of a document, its trees and the remarks on it agree on what went wrong. -/
structure Accounts (items : List Item) (trees : List Tree) (remarks : List Remark) : Prop where
  error : anyError trees = remarks.any Remark.isError
  structural : ∀ r ∈ remarks, r.isStructural
  openBlock : .openBlock ∈ remarks → ∃ b, .block b ∈ items ∧ b.closing = none
  unclosed : ∀ b, .block b ∈ items → b.closing = none → anyError trees
  docStrings : ∀ n ∈ nodesOf trees, n.rule? = some .docStrings → ∃ b, .block b ∈ items ∧ n = b.tree

namespace Accounts

variable {items items' : List Item} {trees trees' : List Tree} {remarks remarks' : List Remark}

lemma plain (h : IsPlain trees) : Accounts [] trees [] :=
  ⟨by simp [h.error], by simp, by simp, by simp, fun n hn doc => absurd doc (h.docStrings n hn)⟩

lemma append (h : Accounts items trees remarks) (h' : Accounts items' trees' remarks') :
    Accounts (items ++ items') (trees ++ trees') (remarks ++ remarks') where
  error := by simp [h.error, h'.error]
  structural := List.forall_mem_append.mpr ⟨h.structural, h'.structural⟩
  openBlock here := by
    rcases List.mem_append.mp here with here | here
    · obtain ⟨b, hb, stays⟩ := h.openBlock here
      exact ⟨b, List.mem_append_left _ hb, stays⟩
    · obtain ⟨b, hb, stays⟩ := h'.openBlock here
      exact ⟨b, List.mem_append_right _ hb, stays⟩
  unclosed b hb stays := by
    rcases List.mem_append.mp hb with hb | hb
    · simp [h.unclosed b hb stays]
    · simp [h'.unclosed b hb stays]
  docStrings n hn doc := by
    rw [Tree.nodesOf_append] at hn
    rcases List.mem_append.mp hn with hn | hn
    · obtain ⟨b, hb, same⟩ := h.docStrings n hn doc
      exact ⟨b, List.mem_append_left _ hb, same⟩
    · obtain ⟨b, hb, same⟩ := h'.docStrings n hn doc
      exact ⟨b, List.mem_append_right _ hb, same⟩

lemma flatMap {α : Type} {f : α → List Item} {g : α → List Tree} {r : α → List Remark} (as : List α)
    (h : ∀ a, Accounts (f a) (g a) (r a)) :
    Accounts (as.flatMap f) (as.flatMap g) (as.flatMap r) := by
  induction as with
  | nil => exact plain (IsPlain.leaves [])
  | cons a as ih => exact (h a).append ih

lemma map {α : Type} {f : α → List Item} {g : α → Tree} {r : α → List Remark} (as : List α)
    (h : ∀ a, Accounts (f a) [g a] (r a)) : Accounts (as.flatMap f) (as.map g) (as.flatMap r) := by
  have whole := flatMap as h
  rwa [← List.map_eq_flatMap] at whole

lemma node {rule : Rule} (other : rule ≠ .docStrings) (anchor : Mark) {recovered : Bool}
    (own : List Remark) (flagged : recovered = own.any Remark.isError)
    (structural : ∀ r ∈ own, r.isStructural ∧ r ≠ .openBlock) (h : Accounts items trees remarks) :
    Accounts items [node rule anchor recovered trees] (own ++ remarks) where
  error := by simp [flagged, h.error]
  structural := List.forall_mem_append.mpr ⟨fun r hr => (structural r hr).1, h.structural⟩
  openBlock here := by
    rcases List.mem_append.mp here with here | here
    · exact absurd rfl (structural _ here).2
    · exact h.openBlock here
  unclosed b hb stays := by simp [h.unclosed b hb stays]
  docStrings := by simpa [Tree.rule?, other] using h.docStrings

lemma built {rule : Rule} (other : rule ≠ .docStrings) (anchor : Mark)
    (h : Accounts items trees remarks) :
    Accounts items [built rule anchor trees] remarks :=
  h.node other anchor [] rfl (by simp)

lemma lines (ls : List Line) (h : Accounts [] trees remarks) :
    Accounts (ls.map .line) trees remarks :=
  ⟨h.error, h.structural, fun here => by simpa using h.openBlock here, by simp,
    fun n hn doc => by simpa using h.docStrings n hn doc⟩

lemma of_mem_iff (h : Accounts items trees remarks) (same : ∀ r, r ∈ remarks ↔ r ∈ remarks') :
    Accounts items trees remarks' where
  error := by
    rw [h.error, Bool.eq_iff_iff, List.any_eq_true, List.any_eq_true]
    simp only [same]
  structural r hr := h.structural r ((same r).mpr hr)
  openBlock here := h.openBlock ((same _).mpr here)
  unclosed := h.unclosed
  docStrings := h.docStrings

end Accounts

namespace TagPart

def isFaulty : TagPart → Bool
  | tag _ name => name.isNone
  | stray _ => true

lemma isFaulty_eq (p : TagPart) : p.isFaulty = (p.isStray || p.tree.hasError) := by
  cases p with
  | tag sign name => cases name <;> simp [isFaulty, isStray, tree]
  | stray t => simp [isFaulty, isStray]

lemma any_isFaulty (ps : List TagPart) :
    ps.any isFaulty = (ps.any isStray || anyError (ps.map tree)) := by
  rw [Bool.eq_iff_iff]
  simp [Tree.anyError_map, isFaulty_eq, and_or_left, exists_or]

lemma nodesOf_tree (p : TagPart) : ∀ n ∈ p.tree.nodes, n.rule? ≠ some .docStrings := by
  cases p with
  | tag sign name => cases name <;> simp [tree, built, Tree.rule?]
  | stray t => simp [tree]

lemma any_isError_remarks (reported : Bool) (parts : List TagPart) :
    (remarks reported parts).any Remark.isError =
      parts.any fun p => if p.isStray then !reported else p.isFaulty := by
  fun_induction remarks reported parts <;>
    simp_all [isStray, isFaulty, Remark.isError, Remark.atToken, Diagnostic.atToken, Fault.isUneven]

lemma isStructural_of_mem_remarks {reported : Bool} {parts : List TagPart} :
    ∀ r ∈ remarks reported parts, r.isStructural ∧ r ≠ .openBlock := by
  fun_induction remarks reported parts <;>
    simp_all [Remark.isStructural, Remark.atToken, Diagnostic.atToken, Diagnostic.of]

end TagPart

namespace Line

def hasFaultyTags (l : Line) : Bool :=
  l.tagParts.any TagPart.isFaulty

lemma anyError_tagTrees (ls : List Line) : anyError (tagTrees ls) = ls.any hasFaultyTags := by
  have parts : ls.any hasFaultyTags = (ls.flatMap tagParts).any TagPart.isFaulty := by
    rw [List.any_flatMap]
    rfl
  rw [parts]
  cases ls with
  | nil => rfl
  | cons l rest =>
      simp only [tagTrees, Tree.anyError_cons, Tree.hasError_node, Tree.anyError_nil, Bool.or_false,
      TagPart.any_isFaulty]

lemma any_isError_tagRemarks (ls : List Line) :
    (tagRemarks ls).any Remark.isError = ls.any hasFaultyTags := by
  rw [tagRemarks, List.any_flatMap]
  congr
  funext l
  rw [TagPart.any_isError_remarks, hasFaultyTags]
  congr
  funext p
  cases p <;> rfl

lemma accounts_tagTrees (ls : List Line) : Accounts [] (tagTrees ls) (tagRemarks ls) where
  error := (anyError_tagTrees ls).trans (any_isError_tagRemarks ls).symm
  structural r hr := by
    obtain ⟨l, _, hr⟩ := List.mem_flatMap.mp hr
    exact (TagPart.isStructural_of_mem_remarks r hr).1
  openBlock here := by
    obtain ⟨l, _, hr⟩ := List.mem_flatMap.mp here
    exact absurd rfl (TagPart.isStructural_of_mem_remarks _ hr).2
  unclosed := by simp
  docStrings n hn doc := by
    cases ls with
    | nil => simp [tagTrees] at hn
    | cons l rest =>
      have part : ∀ ps : List TagPart, ∀ n ∈ nodesOf (ps.map TagPart.tree),
          n.rule? ≠ some .docStrings := by
        intro ps
        induction ps with
        | nil => simp
        | cons p ps ih => simpa [or_imp, forall_and] using ⟨p.nodesOf_tree, ih⟩
      simp only [tagTrees, Tree.nodesOf_cons, Tree.nodes_node, Tree.nodesOf_nil, List.append_nil,
        List.mem_cons] at hn
      rcases hn with rfl | hn
      · simp [Tree.rule?] at doc
      · exact absurd doc (part _ n hn)

lemma isPlain_nameTree (keyword : Token) (rest : List Token) : IsPlain [nameTree keyword rest] := by
  refine .built (by decide) _ (.map fun t => ?_)
  rw [nameChild]
  split
  · exact .built (by decide) _ (.leaves [t])
  · exact .leaves [t]

lemma isPlain_tokenTrees (ls : List Line) : IsPlain (ls.flatMap tokenTrees) := by
  have whole : ls.flatMap tokenTrees = (ls.flatMap Line.tokens).map leaf := by
    rw [List.map_flatMap]
    rfl
  exact whole ▸ .leaves _

lemma isPlain_headerTrees (l : Line) : IsPlain l.headerTrees := by
  rw [headerTrees]
  split
  · exact (IsPlain.leaves [l.head]).append (isPlain_nameTree _ _)
  · split
    · exact (IsPlain.leaves [l.head, _]).append (isPlain_nameTree _ _)
    · exact (IsPlain.leaves [l.head]).append (isPlain_nameTree _ _)

lemma isPlain_rowTree (l : Line) : IsPlain [l.rowTree] := by
  refine .built (by decide) _ (.map fun part => ?_)
  cases part with
  | loose t => exact .leaves [t]
  | cell tokens =>
    refine .built (by decide) _ (.map fun t => ?_)
    rw [RowPart.cellChild]
    split
    · exact .built (by decide) _ (.leaves [t])
    · exact .leaves [t]

lemma isPlain_tableTrees (ls : List Line) : IsPlain (tableTrees ls) := by
  cases ls with
  | nil => exact .leaves []
  | cons l rest =>
    have head : IsPlain [built .tableHead l.start [l.rowTree]] :=
      .built (by decide) _ (isPlain_rowTree l)
    have rows : IsPlain [built .tableRows l.stop (rest.map rowTree)] :=
      .built (by decide) _ (.map isPlain_rowTree)
    exact .built (by decide) _ (head.append rows)

variable (o : Options)

lemma warning_of_mem_unevenRows {expected row : Nat} {ls : List Line} :
    ∀ r ∈ unevenRows o expected row ls, r.isError = false ∧ r.isStructural ∧ r ≠ .openBlock := by
  induction ls generalizing row with
  | nil => simp [unevenRows]
  | cons l rest ih =>
    rw [unevenRows]
    split
    · refine List.forall_mem_cons.mpr ⟨?_, ih⟩
      simp [Remark.isError, Remark.isStructural, Fault.isUneven, Diagnostic.of, Diagnostic.isError,
        Fault.severity]
    · exact ih

lemma accounts_tableTrees (ls : List Line) : Accounts [] (tableTrees ls) (tableRemarks o ls) := by
  have plain := isPlain_tableTrees ls
  have warnings : ∀ r ∈ tableRemarks o ls, r.isError = false ∧ r.isStructural ∧ r ≠ .openBlock := by
    cases ls with
    | nil => simp [tableRemarks]
    | cons l rest => exact warning_of_mem_unevenRows o
  refine ⟨?_, fun r hr => (warnings r hr).2.1,
    fun here => absurd rfl (warnings _ here).2.2, by simp,
    fun n hn doc => absurd doc (plain.docStrings n hn)⟩
  rw [plain.error, eq_comm, List.any_eq_false]
  exact fun r hr => by simp [(warnings r hr).1]

end Line

lemma Block.accounts (b : Block) : Accounts [.block b] [b.tree] b.remarks where
  error := by
    obtain ⟨opening, content, closing⟩ := b
    cases closing <;> simp [Block.tree, Block.remarks, Line.tokenTrees, closingTrees,
      Remark.isError]
  structural := by
    rw [Block.remarks]
    split <;> simp [Remark.isStructural]
  openBlock here := by
    refine ⟨b, by simp, ?_⟩
    simpa [Block.remarks] using here
  unclosed b' hb stays := by
    obtain rfl : b' = b := by simpa using hb
    simp [Block.tree, stays]
  docStrings n hn doc := by
    refine ⟨b, by simp, ?_⟩
    have closing : nodesOf b.closingTrees = [] := by
      rw [closingTrees]
      split
      · rfl
      · exact Tree.nodesOf_map_leaf _
    simp only [Block.tree, Tree.nodesOf_cons, Tree.nodes_node, Tree.nodesOf_append, Line.tokenTrees,
      Tree.nodesOf_map_leaf, Tree.nodesOf_nil, built, closing, List.append_nil, List.nil_append,
      List.mem_cons, List.not_mem_nil, or_false] at hn
    rcases hn with rfl | rfl
    · rfl
    · simp [Tree.rule?] at doc

lemma Entry.accounts {α : Type} {rule context : Rule} (other : rule ≠ .docStrings) (anchor : Mark)
    {member : α → Tree} {items : α → List Item} {remarks : α → List Remark}
    (entries : List (Entry α))
    (h : ∀ a, Accounts (items a) [member a] (remarks a)) :
    Accounts (entries.flatMap (Entry.items items)) [sectionTree rule anchor member entries]
      (entries.flatMap (Entry.remarks context remarks)) where
  error := by
    have pointwise : ∀ e : Entry α,
        (e.isStray || anyError (e.trees member)) =
          (e.remarks context remarks).any Remark.isError := by
      intro e
      cases e with
      | placed a => simpa [Entry.isStray, Entry.trees, Entry.remarks] using (h a).error
      | stray i =>
        simp [Entry.isStray, Entry.remarks, Item.unexpected, Remark.atToken, Diagnostic.atToken,
          Remark.isError, Fault.isUneven]
    rw [List.any_flatMap]
    simp only [← pointwise]
    rw [Bool.eq_iff_iff]
    simp [sectionTree, Tree.anyError_flatMap, and_or_left, exists_or]
  structural r hr := by
    obtain ⟨e, _, hr⟩ := List.mem_flatMap.mp hr
    cases e with
    | placed a => exact (h a).structural r hr
    | stray i =>
      obtain rfl := List.mem_singleton.mp hr
      rfl
  openBlock here := by
    obtain ⟨e, he, hr⟩ := List.mem_flatMap.mp here
    cases e with
    | placed a =>
      obtain ⟨b, hb, stays⟩ := (h a).openBlock hr
      exact ⟨b, List.mem_flatMap.mpr ⟨_, he, hb⟩, stays⟩
    | stray i => simp [Entry.remarks, Item.unexpected, Remark.atToken] at hr
  unclosed b hb stays := by
    obtain ⟨e, he, hb⟩ := List.mem_flatMap.mp hb
    simp only [sectionTree, Tree.anyError_cons, Tree.hasError_node, Tree.anyError_flatMap,
      Bool.or_eq_true, List.any_eq_true]
    left
    cases e with
    | placed a => exact .inr ⟨_, he, (h a).unclosed b hb stays⟩
    | stray i => exact .inl ⟨_, he, rfl⟩
  docStrings n hn doc := by
    simp only [sectionTree, Tree.nodesOf_cons, Tree.nodes_node, Tree.nodesOf_nil, List.append_nil,
      List.mem_cons] at hn
    rcases hn with rfl | hn
    · exact absurd (Option.some.inj doc) other
    · rw [Tree.nodesOf_flatMap] at hn
      obtain ⟨e, he, hn⟩ := List.mem_flatMap.mp hn
      cases e with
      | placed a =>
        obtain ⟨b, hb, same⟩ := (h a).docStrings n hn doc
        exact ⟨b, List.mem_flatMap.mpr ⟨_, he, hb⟩, same⟩
      | stray i => simp [Entry.trees, Item.trees] at hn

end FeatureFile
