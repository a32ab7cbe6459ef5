import FeatureFile.Proofs.Alike.Parse
import FeatureFile.Proofs.Shift.Remarks
import FeatureFile.Proofs.Token.Reports

namespace FeatureFile

open Text (byteOrderMark)

namespace Tree

variable (d : Shift)

mutual

lemma hasError_shift (t : Tree) : (t.shift d).hasError = t.hasError := by
  cases t with
  | leaf t => rfl
  | node rule anchor recovered cs => simp [hasError, anyError_shift cs]

lemma anyError_shift (ts : List Tree) : anyError (ts.map (shift d)) = anyError ts := by
  cases ts with
  | nil => rfl
  | cons t rest => rw [List.map_cons, anyError, hasError_shift t, anyError_shift rest, anyError]

end

mutual

lemma nodes_shift (t : Tree) : (t.shift d).nodes = t.nodes.map (shift d) := by
  cases t with
  | leaf t => simp
  | node rule anchor recovered cs => simp [nodesOf_shift cs]

lemma nodesOf_shift (ts : List Tree) : nodesOf (ts.map (shift d)) = (nodesOf ts).map (shift d) := by
  cases ts with
  | nil => simp
  | cons t rest => simp [nodes_shift t, nodesOf_shift rest]

end

lemma descendants_shift (t : Tree) : (t.shift d).descendants = t.descendants.map (shift d) := by
  rw [descendants_eq_nodesOf, descendants_eq_nodesOf, ← nodesOf_shift]
  cases t <;> simp [children]

end Tree

namespace Diagnostic

lemma sort_shift (d : Shift) (es : List Diagnostic) :
    sort (es.map (shift d)) = (sort es).map (shift d) := by
  refine (map_mergeSort_eq_sort fun a _ b _ => ?_).symm
  simp [shift, Mark.shift]

end Diagnostic

namespace Stream

variable {text : List Char}

lemma origin_mark (unmarked : text.head? ≠ some byteOrderMark) :
    origin (byteOrderMark :: text) = (origin text).shift ⟨3, 0⟩ := by
  have offset : (origin (byteOrderMark :: text)).offset = 3 := by simp [offset_origin]
  rw [origin_of_unmarked unmarked]
  exact congrArg (Mark.mk · .start) offset

lemma ofText_mark (unmarked : text.head? ≠ some byteOrderMark) :
    let s := ofText text
    let s' := ofText (byteOrderMark :: text)
    s'.content = s.content.map (Token.shift ⟨3, 0⟩) ∧ s'.eof = s.eof.shift ⟨3, 0⟩ ∧
      s'.reports = s.reports.map (LexicalReport.shift ⟨3, 0⟩) := by
  intro s s'
  have strip : Text.stripMark (byteOrderMark :: text) = text := rfl
  have plain : Text.stripMark text = text := Text.stripMark_of_unmarked unmarked
  have content : s'.content = s.content.map (Token.shift ⟨3, 0⟩) := by
    simp only [s, s', content_ofText, strip, plain, origin_mark unmarked, Token.place_shift]
  have stop : s'.stop = s.stop.shift ⟨3, 0⟩ := by
    simp only [s, s', stop_eq, strip, plain, origin_mark unmarked, Token.placeEnd_shift]
  refine ⟨content, congrArg (Token.mk .eof []) stop, ?_⟩
  have quotes : quotes (byteOrderMark :: text) =
      (quotes text).map (LexicalReport.shift ⟨3, 0⟩) := by
    simp only [quotes, strip, plain, origin_mark unmarked, ScanNote.quoteReports_shift]
  have fence : openFence s'.content = (openFence s.content).map (Token.shift ⟨3, 0⟩) := by
    rw [openFence_eq, openFence_eq, content]
    exact fenceBehind_shift ⟨3, 0⟩ none s.content
  rw [reports_eq, reports_eq, quotes, List.map_append, openDocString_shift fence, Option.toList_map]

end Stream

namespace Parsed

variable {text : List Char}

lemma feature_mark (options : Options) (unmarked : text.head? ≠ some byteOrderMark) :
    (parse options (byteOrderMark :: text)).feature = (parse options text).feature.shift ⟨3, 0⟩ := by
  obtain ⟨content, eof, -⟩ := Stream.ofText_mark unmarked
  rw [feature_parse, feature_parse, Feature.ofStream, Feature.ofStream, content, eof,
    RawLine.ofTokens_shift, Feature.ofLines_shift]

lemma reported_mark (options : Options) (unmarked : text.head? ≠ some byteOrderMark) :
    (parse options (byteOrderMark :: text)).reported =
      (parse options text).reported.map (Diagnostic.shift ⟨3, 0⟩) := by
  have remarks : (parse options (byteOrderMark :: text)).remarks =
      (parse options text).remarks.map (Remark.shift ⟨3, 0⟩) := by
    have found := feature_mark options unmarked
    rw [feature_parse, feature_parse] at found
    rw [remarks_parse, remarks_parse, found, Feature.remarks_shift]
  have structural : ((parse options text).remarks.map (Remark.shift ⟨3, 0⟩)).filterMap
      Remark.diagnostic? =
      ((parse options text).remarks.filterMap Remark.diagnostic?).map (Diagnostic.shift ⟨3, 0⟩) := by
    rw [List.filterMap_map, List.map_filterMap]
    refine List.filterMap_congr fun r _ => ?_
    cases r <;> rfl
  rw [reported, reported, remarks, structural, stream_parse, stream_parse,
    (Stream.ofText_mark unmarked).2.2, List.map_append, List.map_map, List.map_map]
  rfl

/-- Behind a byte-order mark a text has the tokens, the reports, the tree and the diagnostics that it
has by itself, three bytes further behind. -/
theorem parse_mark (options : Options) (unmarked : text.head? ≠ some byteOrderMark) :
    let p := parse options text
    let q := parse options (byteOrderMark :: text)
    let d : Shift := ⟨3, 0⟩
    q.tokens = p.tokens.map (Token.shift d) ∧
      q.stream.reports = p.stream.reports.map (LexicalReport.shift d) ∧
      q.root = p.root.shift d ∧
      (q.root :: q.root.descendants).map (fun n => (n.start, n.stop, n.recovered, n.hasError)) =
        (p.root :: p.root.descendants).map
          (fun n => (n.start.shift d, n.stop.shift d, n.recovered, n.hasError)) ∧
      q.diagnostics = p.diagnostics.map (Diagnostic.shift d) := by
  intro p q d
  obtain ⟨content, eof, reports⟩ := Stream.ofText_mark unmarked
  have root : q.root = p.root.shift d := by
    rw [Parsed.root, Parsed.root, feature_mark options unmarked, Feature.tree_shift]
  have recovered (n : Tree) : (n.shift d).recovered = n.recovered := by
    cases n <;> simp [Tree.recovered]
  refine ⟨?_, reports, root, ?_, ?_⟩
  · rw [tokens, tokens, Stream.tokens, Stream.tokens, stream_parse, stream_parse, content, eof,
      List.map_append]
    rfl
  · rw [root, Tree.descendants_shift, ← List.map_cons, List.map_map]
    refine List.map_congr_left fun n _ => ?_
    simp [Tree.start_shift, Tree.stop_shift, recovered, Tree.hasError_shift]
  · rw [diagnostics, diagnostics, reported_mark options unmarked, Diagnostic.sort_shift]

theorem parse_mark_empty :
    let text := "# c".toList
    let p := parse ⟨true⟩ text
    let q := parse ⟨true⟩ (byteOrderMark :: text)
    text.head? ≠ some byteOrderMark ∧ q.tokens = p.tokens.map (Token.shift ⟨3, 0⟩) ∧
      q.root = p.root.shift ⟨3, 0⟩ ∧
      q.root.descendants.map (·.start.offset) = [6, 6, 6, 6] ∧
      q.diagnostics = p.diagnostics.map (Diagnostic.shift ⟨3, 0⟩) := by
  intro text p q
  have unmarked : text.head? ≠ some byteOrderMark := by decide +kernel
  obtain ⟨tokens, -, root, -, diagnostics⟩ := parse_mark ⟨true⟩ unmarked
  exact ⟨unmarked, tokens, root, by decide +kernel, diagnostics⟩

end Parsed

end FeatureFile
