import FeatureFile.Proofs.Text.Lines
import FeatureFile.Text.Utf8

namespace FeatureFile

namespace Text

def normalize : List Char → List Char
  | [] => []
  | '\r' :: '\n' :: rest => '\n' :: normalize rest
  | c :: rest => (if c = '\r' then '\n' else c) :: normalize rest

def SourceLine.normalized (l : SourceLine) : SourceLine :=
  ⟨l.content, if l.ending = [] then [] else ['\n']⟩

lemma map_normalized_prependChar (c : Char) (ls : List SourceLine) :
    (prependChar c ls).map SourceLine.normalized =
      prependChar c (ls.map SourceLine.normalized) := by
  cases ls <;> rfl

lemma lines_normalize (text : List Char) :
    lines (normalize text) = (lines text).map SourceLine.normalized := by
  fun_induction normalize text with
  | case1 => rfl
  | case2 rest ih => rw [lines_feed, ih, lines, List.map_cons]; rfl
  | case3 c rest joined ih =>
    rw [lines.eq_3 c rest joined]
    by_cases ends : isBreak c
    · have feed : (if c = '\r' then '\n' else c) = '\n' := by
        rcases (by simpa [isBreak] using ends : c = '\r' ∨ c = '\n') with rfl | rfl <;> rfl
      rw [if_pos ends, feed, lines_feed, ih]
      simp [SourceLine.normalized]
    · have same : (if c = '\r' then '\n' else c) = c := if_neg (by rintro rfl; exact ends rfl)
      rw [if_neg ends, same, lines_inline (by simpa using ends), ih, map_normalized_prependChar]

lemma stripMark_normalize (text : List Char) :
    stripMark (normalize text) = normalize (stripMark text) := by
  fun_cases normalize text with
  | case1 => rfl
  | case2 rest => rfl
  | case3 c rest joined =>
    by_cases mark : c = byteOrderMark
    · subst mark
      rfl
    · have kept : (if c = '\r' then '\n' else c) ≠ byteOrderMark := by
        split
        · decide
        · exact mark
      rw [stripMark, if_neg kept, stripMark, if_neg mark, normalize.eq_3 c rest joined]

end Text

end FeatureFile
