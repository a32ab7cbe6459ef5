import Mathlib.Data.List.Nodup
import FeatureFile.Proofs.Document.OpenFence
import FeatureFile.Proofs.Document.Warnings
import FeatureFile.Proofs.Token.Reports
import FeatureFile.Proofs.Tree.Errors

/-!
Errors of the tree and errors among the diagnostics. The flag of the tree is set while the document
is read, the fault of an open doc string comes from the scan: they agree because both see the same
doc string open.
-/

namespace FeatureFile

namespace Feature

lemma leavesOpen_ofText (text : List Char) (t : Token) :
    (ofStream (Stream.ofText text)).LeavesOpen t ↔
      openFence (Stream.ofText text).content = some t := by
  have agrees := leavesOpen_ofLines (Stream.ofText text).eof (scanned_ofText text)
    (RawLine.isClosed_ofTokens _) t
  rwa [RawLine.flatMap_tokens_ofTokens] at agrees

lemma missing_of_junk {eof : Token} {ls : List RawLine} (h : (ofLines eof ls).opening.junk ≠ []) :
    (ofLines eof ls).opening.missing.isSome := by
  have other : Opening.kindBehindTags ls ≠ .header .feature :=
    fun feature => h (Opening.skipJunk_of_feature feature)
  simp [ofLines, Opening.take, Opening.missing?, other]

lemma hasError_of_leavesOpen {eof : Token} {ls : List RawLine} {t : Token}
    (h : (ofLines eof ls).LeavesOpen t) :
    (ofLines eof ls).tree.hasError := by
  rcases h with ⟨b, hb, stays, -⟩ | h
  · simpa using (accounts ⟨false⟩ (ofLines eof ls)).unclosed b hb stays
  · have skipped : (ofLines eof ls).opening.junk ≠ [] := by
      intro none
      rw [none] at h
      cases h
    simp [tree, missing_of_junk skipped]

lemma nodup_tokens (text : List Char) :
    let f := ofStream (Stream.ofText text)
    (f.opening.junk.flatMap Line.tokens ++ f.items.flatMap Item.tokens).Nodup := by
  have kept := (keeps_items_ofStream (Stream.ofText text)).sublist
  have whole := kept.trans (List.sublist_append_left _ [(Stream.ofText text).eof])
  exact (Stream.nodup_tokens text).sublist whole

lemma closing_eq_none_iff {text : List Char} {b : Block}
    (h : .block b ∈ (ofStream (Stream.ofText text)).items) :
    b.closing = none ↔ openFence (Stream.ofText text).content = some b.opening.head := by
  rw [← leavesOpen_ofText]
  refine ⟨fun stays => .inl ⟨b, h, stays, rfl⟩, ?_⟩
  have head : b.opening.head ∈ (Item.block b).tokens := by
    simp [Item.tokens, Block.tokens, Line.tokens]
  -- Each token stands in one item only, so it is this doc string that its fence leaves open.
  obtain ⟨-, items, apart⟩ := List.nodup_append.mp (nodup_tokens text)
  rintro (⟨b', h', stays, same⟩ | skipped)
  · have head' : b.opening.head ∈ (Item.block b').tokens := by
      simp [← same, Item.tokens, Block.tokens, Line.tokens]
    have symm : Std.Symm (Function.onFun List.Disjoint Item.tokens) := ⟨fun _ _ d _ h h' => d h' h⟩
    have disjoint := (List.nodup_flatMap.mp items).2.forall h h'
    by_cases eq : Item.block b = Item.block b'
    · obtain rfl := Item.block.inj eq
      exact stays
    · exact absurd head' (disjoint eq head)
  · have junk := (mem_of_fenceBehind skipped).resolve_left (by simp)
    exact absurd rfl (apart _ junk _ (List.mem_flatMap.mpr ⟨_, h, head⟩))

end Feature

namespace Parsed

variable {options : Options} {text : List Char}

lemma remarks_eq_filter (options : Options) (text : List Char) :
    (parse options text).remarks = (parse ⟨true⟩ text).remarks.filter options.keeps :=
  (Feature.filter_remarks options _).symm

lemma mem_diagnostics {d : Diagnostic} :
    d ∈ (parse options text).diagnostics ↔
      (∃ r ∈ (Stream.ofText text).reports, d = .ofReport r) ∨
      .fault d ∈ (parse options text).remarks := by
  have remarks : d ∈ (parse options text).remarks.filterMap Remark.diagnostic? ↔
      .fault d ∈ (parse options text).remarks := by
    refine List.mem_filterMap.trans ⟨fun ⟨r, hr, found⟩ => ?_, fun h => ⟨_, h, rfl⟩⟩
    cases r with
    | openBlock => cases found
    | fault d' => exact Option.some.inj found ▸ hr
  have sorted : d ∈ (parse options text).diagnostics ↔ d ∈ (parse options text).reported :=
    (List.mergeSort_perm _ _).mem_iff
  rw [sorted, reported, List.mem_append, remarks, List.mem_map]
  simp only [parse, eq_comm]

lemma isStructural_of_mem_remarks : ∀ r ∈ (parse options text).remarks, r.isStructural :=
  (Feature.accounts options _).structural

lemma fault_ne_lexical {d : Diagnostic} (h : .fault d ∈ (parse options text).remarks)
    (f : LexicalFault) :
    d.fault ≠ .lexical f := by
  intro lexical
  have := isStructural_of_mem_remarks _ h
  simp [Remark.isStructural, lexical] at this

lemma hasError_iff_remarks :
    (parse options text).hasError ↔ ∃ r ∈ (parse options text).remarks, r.isError := by
  have accounts := Feature.accounts options (Feature.ofStream (Stream.ofText text))
  have error : (Feature.ofStream (Stream.ofText text)).tree.hasError =
      ((Feature.ofStream (Stream.ofText text)).remarks options).any Remark.isError := by
    simpa using accounts.error
  rw [hasError, root, parse, error, List.any_eq_true]

def openDocString (t : Token) : Diagnostic :=
  .ofReport ⟨.openDocString, t.start, t.stop.offset⟩

lemma openDocString_mem_diagnostics {d : Diagnostic} :
    (d ∈ (parse options text).diagnostics ∧ d.fault = .lexical .openDocString) ↔
      ∃ t, (parse options text).feature.LeavesOpen t ∧ d = openDocString t := by
  have opened (t : Token) : (parse options text).feature.LeavesOpen t ↔
      openFence (Stream.ofText text).content = some t := Feature.leavesOpen_ofText text t
  simp only [opened, mem_diagnostics]
  constructor
  · rintro ⟨⟨r, hr, rfl⟩ | h, fault⟩
    · have kind : r.fault = .openDocString := Fault.lexical.inj fault
      obtain ⟨t, here, rfl⟩ := Stream.mem_openDocString.mp
        ((Stream.mem_reports_of_ne (by simp [kind])).mp hr)
      exact ⟨t, here, rfl⟩
    · exact absurd fault (fault_ne_lexical h _)
  · rintro ⟨t, here, rfl⟩
    have report := Stream.mem_openDocString.mpr ⟨t, here, rfl⟩
    exact ⟨.inl ⟨_, (Stream.mem_reports_of_ne (by simp)).mpr report, rfl⟩, rfl⟩

lemma hasError_iff_diagnostics :
    (parse options text).hasError ↔
      ∃ d ∈ (parse options text).diagnostics, d.isError ∧ d.fault ≠ .lexical .openString := by
  constructor
  · intro h
    obtain ⟨r, hr, error⟩ := hasError_iff_remarks.mp h
    cases r with
    | fault d => exact ⟨d, mem_diagnostics.mpr (.inr hr), error, fault_ne_lexical hr _⟩
    | openBlock =>
      -- The tree has no diagnostic of its own for this: the scan reports the fence.
      obtain ⟨b, hb, stays⟩ := (Feature.accounts options _).openBlock hr
      have opened : (parse options text).feature.LeavesOpen b.opening.head :=
        .inl ⟨b, hb, stays, rfl⟩
      have found := openDocString_mem_diagnostics.mpr ⟨_, opened, rfl⟩
      refine ⟨_, found.1, ?_, by simp [found.2]⟩
      simp [openDocString, Diagnostic.ofReport, Fault.isUneven]
  · rintro ⟨d, hd, error, other⟩
    rcases mem_diagnostics.mp hd with ⟨r, hr, rfl⟩ | h
    · have kind : r.fault ≠ .openString :=
        fun string => other (by simp [Diagnostic.ofReport, Diagnostic.of, string])
      obtain ⟨t, here, rfl⟩ := Stream.mem_openDocString.mp ((Stream.mem_reports_of_ne kind).mp hr)
      exact Feature.hasError_of_leavesOpen ((Feature.leavesOpen_ofText text t).mpr here)
    · exact hasError_iff_remarks.mpr ⟨_, h, error⟩

lemma recovered_iff_of_docStrings {n : Tree} (h : n ∈ (parse options text).root.descendants)
    (doc : n.rule? = some .docStrings) :
    n.recovered ↔ ∃ t ∈ n.leaves.head?, openFence (Stream.ofText text).content = some t := by
  have inner : n ∈ Tree.nodesOf [(parse options text).root] := Tree.mem_nodesOf_singleton rfl h
  obtain ⟨b, hb, rfl⟩ := (Feature.accounts options _).docStrings n inner doc
  have head : b.tree.leaves.head? = some b.opening.head := by
    simp [Block.tree, Line.tokenTrees, Line.tokens]
  have flag : b.tree.recovered = b.closing.isNone := rfl
  rw [head, flag, Option.isNone_iff_eq_none, Feature.closing_eq_none_iff hb]
  simp

/-- Something went wrong in the tree exactly if the diagnostics tell of an error besides a string
that is not closed. In particular the fault of an open doc string is reported exactly for the one
that the document leaves open, wherever it stands. -/
theorem hasError_agrees (options : Options) (text : List Char) :
    let p := parse options text
    (p.hasError ↔ ∃ d ∈ p.diagnostics, d.isError ∧ d.fault ≠ .lexical .openString) ∧
      (∀ d, (d ∈ p.diagnostics ∧ d.fault = .lexical .openDocString) ↔
        ∃ t, p.feature.LeavesOpen t ∧ d = openDocString t) ∧
      ∀ n ∈ p.root.descendants, n.rule? = some .docStrings →
        (n.recovered ↔ ∃ t ∈ n.leaves.head?, openFence p.stream.content = some t) :=
  ⟨hasError_iff_diagnostics, fun _ => openDocString_mem_diagnostics,
    fun _ h doc => recovered_iff_of_docStrings h doc⟩

end Parsed

end FeatureFile
