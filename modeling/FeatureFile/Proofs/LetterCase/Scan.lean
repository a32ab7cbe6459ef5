import FeatureFile.Keyword
import FeatureFile.Proofs.Lexeme.Line
import FeatureFile.Proofs.Alike.Lists
import FeatureFile.Proofs.Text.CaseFold

namespace FeatureFile

open Text (SameFold foldCase isCaseless eq_iff_of_isCaseless isAlphanumeric_eq isBlank_eq isBreak_eq
  isDigit_eq isPad_eq eq_of_isCaseless)

variable {c d : Char} {rest rest' : List Char}

namespace Text.SameFold

lemma length_eq (h : SameFold rest rest') : rest.length = rest'.length :=
  List.Forall₂.length_eq h

lemma takeWhile {p : Char → Bool} (test : ∀ c d, foldCase c = foldCase d → p c = p d)
    (h : SameFold rest rest') : SameFold (rest.takeWhile p) (rest'.takeWhile p) :=
  List.Forall₂.takeWhile test h

lemma dropWhile {p : Char → Bool} (test : ∀ c d, foldCase c = foldCase d → p c = p d)
    (h : SameFold rest rest') : SameFold (rest.dropWhile p) (rest'.dropWhile p) :=
  List.Forall₂.dropWhile test h

lemma take (n : Nat) (h : SameFold rest rest') : SameFold (rest.take n) (rest'.take n) :=
  List.forall₂_take n h

lemma drop (n : Nat) (h : SameFold rest rest') : SameFold (rest.drop n) (rest'.drop n) :=
  List.forall₂_drop n h

end Text.SameFold

namespace Literal

lemma isQuote_eq (same : foldCase c = foldCase d) : isQuote c = isQuote d := by
  simp only [isQuote, eq_iff_of_isCaseless (x := '"') rfl same,
    eq_iff_of_isCaseless (x := '\'') rfl same]

lemma mayBegin_eq {q q' : Char} (front : foldCase q = foldCase q') (same : foldCase c = foldCase d) :
    mayBegin q c = mayBegin q' d := by
  simp only [mayBegin, isAlphanumeric_eq front, isQuote_eq same, isDigit_eq same, bne, beq_eq_decide,
    eq_iff_of_isCaseless (x := '<') rfl same, eq_iff_of_isCaseless (x := '.') rfl front,
    eq_iff_of_isCaseless (x := '_') rfl front]

lemma string_eq {q : Char} (quote : isCaseless q) (h : SameFold rest rest') :
    string q rest = string q rest' := by
  induction h with
  | nil => rfl
  | cons first _ ih =>
    simp only [string, isBreak_eq first, eq_iff_of_isCaseless quote first, ih]

lemma digitCount_eq (h : SameFold rest rest') : digitCount rest = digitCount rest' :=
  (h.takeWhile fun _ _ => isDigit_eq).length_eq

lemma isFused_eq (h : SameFold rest rest') : isFused rest = isFused rest' := by
  cases h with
  | nil => rfl
  | @cons c d rest rest' first others =>
    by_cases dot : c = '.'
    · obtain rfl := dot
      obtain rfl := eq_of_isCaseless rfl first
      cases others with
      | nil => rfl
      | cons next _ => exact isDigit_eq next
    · have dot' : d ≠ '.' := mt (eq_iff_of_isCaseless rfl first).mpr dot
      simp [isFused, dot, dot', isAlphanumeric_eq first, eq_iff_of_isCaseless (x := '_') rfl first]

lemma fraction_eq (h : SameFold rest rest') : fraction rest = fraction rest' := by
  cases h with
  | nil => rfl
  | @cons c d rest rest' first others =>
    by_cases dot : c = '.'
    · obtain rfl := dot
      obtain rfl := eq_of_isCaseless rfl first
      simp only [fraction, digitCount_eq others]
    · have dot' : d ≠ '.' := mt (eq_iff_of_isCaseless rfl first).mpr dot
      simp [fraction, dot, dot']

lemma number_eq (h : SameFold rest rest') : number rest = number rest' := by
  have whole := digitCount_eq h
  have part := fraction_eq (h.drop (digitCount rest'))
  simp only [number, whole, part, isFused_eq (h.drop _)]

lemma closeAngle_eq (h : SameFold rest rest') : closeAngle rest = closeAngle rest' := by
  induction h with
  | nil => rfl
  | cons first _ ih =>
    simp only [closeAngle, isBreak_eq first, eq_iff_of_isCaseless (x := '>') rfl first,
      eq_iff_of_isCaseless (x := '<') rfl first, ih]

lemma placeholder_eq (h : SameFold rest rest') : placeholder rest = placeholder rest' := by
  cases h with
  | nil => rfl
  | cons first others =>
    simp only [placeholder, isBlank_eq first, eq_iff_of_isCaseless (x := '>') rfl first,
      eq_iff_of_isCaseless (x := '<') rfl first, closeAngle_eq others]

lemma isCaseless_of_isQuote (quote : isQuote c) : isCaseless c := by
  rcases Bool.or_eq_true_iff.mp quote with here | here <;>
    · rw [of_decide_eq_true here]
      rfl

lemma scan_eq (same : foldCase c = foldCase d) (h : SameFold rest rest') :
    scan c rest = scan d rest' := by
  by_cases quote : isQuote c
  · obtain rfl := eq_of_isCaseless (isCaseless_of_isQuote quote) same
    rw [scan, scan, if_pos quote, if_pos quote, string_eq (isCaseless_of_isQuote quote) h]
  · rw [scan, scan, ← isQuote_eq same, if_neg quote, if_neg quote]
    simp only [eq_iff_of_isCaseless (x := '<') rfl same, isDigit_eq same, placeholder_eq h, number_eq h]

end Literal

namespace Keyword

lemma alike_after? (phrase : List Char) (h : SameFold rest rest') :
    Option.Rel SameFold (after? phrase rest) (after? phrase rest') := by
  induction phrase generalizing rest rest' with
  | nil => exact .some h
  | cons p phrase ih =>
    cases h with
    | nil => exact .none
    | cons first others =>
      rw [after?, after?, first]
      split
      · exact ih others
      · exact .none

lemma endsBefore_eq (kind : TokenKind) (h : SameFold rest rest') :
    endsBefore kind rest = endsBefore kind rest' := by
  cases h with
  | nil => rfl
  | cons first _ =>
    have sign (x : Char) (caseless : isCaseless x) := eq_iff_of_isCaseless caseless first
    simp only [endsBefore, List.mem_cons, List.not_mem_nil, or_false, sign ':' rfl, sign ' ' rfl,
      sign '\t' rfl, sign '\r' rfl, sign '\n' rfl, sign '#' rfl]

lemma matchPhrase_eq (kind : TokenKind) (phrase : String) (h : SameFold rest rest') :
    matchPhrase rest kind phrase = matchPhrase rest' kind phrase := by
  have behind := alike_after? phrase.toList h
  rw [matchPhrase, matchPhrase]
  generalize after? phrase.toList rest = a at behind
  generalize after? phrase.toList rest' = b at behind
  cases behind with
  | none => rfl
  | some here => simp only [endsBefore_eq kind here]

lemma at?_eq (h : SameFold rest rest') : at? rest = at? rest' := by
  have same (kind : TokenKind) : matchPhrase rest kind = matchPhrase rest' kind :=
    funext fun phrase => matchPhrase_eq kind phrase h
  simp only [at?, candidates, same]

end Keyword

namespace Fence

lemma isPrefixOf_marker_eq (f : Fence) (h : SameFold rest rest') :
    f.marker.isPrefixOf rest = f.marker.isPrefixOf rest' := by
  have caseless : ∀ x ∈ f.marker, isCaseless x := by cases f <;> decide
  generalize f.marker = marker at caseless
  induction marker generalizing rest rest' with
  | nil => rfl
  | cons x marker ih =>
    obtain ⟨own, others⟩ := List.forall_mem_cons.mp caseless
    cases h with
    | nil => rfl
    | cons first below =>
      have here := eq_iff_of_isCaseless own first
      simp only [List.isPrefixOf, ih below others, Bool.beq_eq_decide_eq, eq_comm (a := x), here]

lemma at?_eq (h : SameFold rest rest') : at? rest = at? rest' := by
  rw [at?, at?, isPrefixOf_marker_eq .quotes h, isPrefixOf_marker_eq .backticks h]

lemma behind_eq (within : Option Fence) (h : SameFold rest rest') :
    behind within rest = behind within rest' := by
  cases within with
  | none => exact at?_eq h
  | some f => rw [behind, behind, isPrefixOf_marker_eq f h]

end Fence

end FeatureFile
