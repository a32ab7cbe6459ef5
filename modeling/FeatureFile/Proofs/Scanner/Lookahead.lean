import Mathlib.Data.List.Basic
import Mathlib.Data.List.TakeWhile
import FeatureFile.Proofs.Lexeme.Line
import FeatureFile.Proofs.Text.Lines

/-!
Looking ahead. What the scanner finds out from all the text behind a character it could find out from
the rest of the line: no look goes beyond a line break.
-/

namespace FeatureFile

open Text (isBreak isPad isBlank isAlphanumeric)

namespace Text

def IsBelow (tail : List Char) : Prop :=
  ∀ c ∈ tail.head?, isBreak c

lemma takeWhile_append_of_isBelow {p : Char → Bool} (stop : p '\r' = false ∧ p '\n' = false)
    (rest : List Char) {tail : List Char} (below : IsBelow tail) :
    (rest ++ tail).takeWhile p = rest.takeWhile p := by
  induction rest with
  | nil =>
    cases tail with
    | nil => rfl
    | cons c tail => rcases isBreak_iff.mp (below c rfl) with rfl | rfl <;> simp [stop]
  | cons c rest ih => rw [List.cons_append, List.takeWhile_cons, List.takeWhile_cons, ih]

lemma isPrefixOf_append_of_isBelow {front : List Char} (inline : ∀ c ∈ front, isBreak c = false)
    (rest : List Char) {tail : List Char} (below : IsBelow tail) :
    front.isPrefixOf (rest ++ tail) = front.isPrefixOf rest := by
  induction front generalizing rest with
  | nil => simp
  | cons c front ih =>
    obtain ⟨first, others⟩ := List.forall_mem_cons.mp inline
    cases rest with
    | nil =>
      cases tail with
      | nil => rfl
      | cons d tail =>
        have apart : c ≠ d := by
          rintro rfl
          simp [below c rfl] at first
        simp [List.isPrefixOf, apart]
    | cons d rest => simp only [List.cons_append, List.isPrefixOf, ih others]

end Text

namespace Literal

section Extent

variable {quote : Char} {text : List Char} {n : Nat}

lemma le_length_of_string (found : string quote text = some n) : n ≤ text.length := by
  induction text generalizing n with
  | nil => cases found
  | cons c text ih =>
    rw [string] at found
    split at found
    · cases found
    · split at found
      · obtain rfl := Option.some.inj found
        simp
      · obtain ⟨m, below, rfl⟩ := Option.map_eq_some_iff.mp found
        exact Nat.succ_le_succ (ih below)

lemma le_length_of_closeAngle (found : closeAngle text = some n) : n ≤ text.length := by
  induction text generalizing n with
  | nil => cases found
  | cons c text ih =>
    rw [closeAngle] at found
    split at found
    · obtain rfl := Option.some.inj found
      simp
    · split at found
      · cases found
      · obtain ⟨m, below, rfl⟩ := Option.map_eq_some_iff.mp found
        exact Nat.succ_le_succ (ih below)

lemma le_length_of_placeholder (found : placeholder text = some n) : n ≤ text.length := by
  cases text with
  | nil => cases found
  | cons c text =>
    rw [placeholder] at found
    split at found
    · cases found
    · obtain ⟨m, below, rfl⟩ := Option.map_eq_some_iff.mp found
      exact Nat.succ_le_succ (le_length_of_closeAngle below)

lemma digitCount_le_length (text : List Char) : digitCount text ≤ text.length :=
  (List.takeWhile_prefix Char.isDigit).length_le

lemma fraction_le_length (text : List Char) : fraction text ≤ text.length := by
  rw [fraction.eq_def]
  split
  next more =>
    have digits := digitCount_le_length more
    split
    · omega
    · simpa using digits
  next => omega

lemma digitCount_add_fraction_le_length (text : List Char) :
    digitCount text + fraction (text.drop (digitCount text)) ≤ text.length := by
  have whole := digitCount_le_length text
  have part := fraction_le_length (text.drop (digitCount text))
  rw [List.length_drop] at part
  omega

lemma le_length_of_scan {c : Char} {kind : TokenKind} (found : scan c text = some (kind, n)) :
    n ≤ text.length := by
  rw [scan] at found
  split at found
  · obtain ⟨m, closed, same⟩ := Option.map_eq_some_iff.mp found
    obtain ⟨-, rfl⟩ := Prod.mk.inj same
    exact le_length_of_string closed
  · split at found
    · obtain ⟨m, closed, same⟩ := Option.map_eq_some_iff.mp found
      obtain ⟨-, rfl⟩ := Prod.mk.inj same
      exact le_length_of_placeholder closed
    · split at found
      · rw [number, Option.ite_none_left_eq_some] at found
        obtain ⟨-, rfl⟩ := Prod.mk.inj (Option.some.inj found.2)
        exact digitCount_add_fraction_le_length text
      · cases found

end Extent

variable (rest : List Char) {tail : List Char} (below : Text.IsBelow tail)

include below

lemma string_append (quote : Char) : string quote (rest ++ tail) = string quote rest := by
  induction rest with
  | nil =>
    cases tail with
    | nil => rfl
    | cons c tail => exact if_pos (below c rfl)
  | cons c rest ih => rw [List.cons_append, string, string, ih]

lemma closeAngle_append : closeAngle (rest ++ tail) = closeAngle rest := by
  induction rest with
  | nil =>
    cases tail with
    | nil => rfl
    | cons c tail => rcases Text.isBreak_iff.mp (below c rfl) with rfl | rfl <;> rfl
  | cons c rest ih => rw [List.cons_append, closeAngle, closeAngle, ih]

lemma placeholder_append : placeholder (rest ++ tail) = placeholder rest := by
  cases rest with
  | nil =>
    cases tail with
    | nil => rfl
    | cons c tail => rcases Text.isBreak_iff.mp (below c rfl) with rfl | rfl <;> rfl
  | cons c rest => rw [List.cons_append, placeholder, placeholder, closeAngle_append rest below]

lemma digitCount_append : digitCount (rest ++ tail) = digitCount rest :=
  congrArg List.length (Text.takeWhile_append_of_isBelow (by decide) rest below)

lemma fraction_append : fraction (rest ++ tail) = fraction rest := by
  cases rest with
  | nil =>
    cases tail with
    | nil => rfl
    | cons c tail => rcases Text.isBreak_iff.mp (below c rfl) with rfl | rfl <;> rfl
  | cons c rest =>
    rw [List.cons_append]
    by_cases dot : c = '.'
    · rw [dot, fraction, fraction, digitCount_append rest below]
    · simp [fraction, dot]

lemma isFused_append : isFused (rest ++ tail) = isFused rest := by
  have word {c : Char} (other : c ≠ '.') (more : List Char) :
      isFused (c :: more) = (isAlphanumeric c || c = '_') := by
    simp [isFused, other]
  rcases rest with _ | ⟨c, _ | ⟨d, rest⟩⟩
  · cases tail with
    | nil => rfl
    | cons c tail =>
      rw [List.nil_append]
      rcases Text.isBreak_iff.mp (below c rfl) with rfl | rfl <;>
        (rw [word (by decide)]; decide +kernel)
  · cases tail with
    | nil => rfl
    | cons d tail =>
      by_cases dot : c = '.'
      · have alone : isFused ['.'] = false := by decide +kernel
        rw [dot, alone]
        rcases Text.isBreak_iff.mp (below d rfl) with rfl | rfl <;> rfl
      · rw [List.cons_append, word dot, word dot]
  · by_cases dot : c = '.'
    · rw [dot]
      rfl
    · rw [List.cons_append, word dot, word dot]

lemma number_append : number (rest ++ tail) = number rest := by
  have whole := digitCount_le_length rest
  have part := digitCount_add_fraction_le_length rest
  rw [number, number, digitCount_append rest below, List.drop_append_of_le_length whole,
    fraction_append _ below, List.drop_append_of_le_length part, isFused_append _ below]

lemma scan_append (c : Char) : scan c (rest ++ tail) = scan c rest := by
  rw [scan, scan, string_append rest below, placeholder_append rest below, number_append rest below]

end Literal

namespace Keyword

lemma foldCase_ne_of_mem_phrases : ∀ kind ∈ kinds, ∀ phrase ∈ kind.phrases, ∀ p ∈ phrase.toList,
    ∀ c ∈ ['\r', '\n'], Text.foldCase c ≠ Text.foldCase p := by
  decide +kernel

variable (text : List Char) {tail : List Char} (below : Text.IsBelow tail)

lemma after?_append {phrase : List Char}
    (inline : ∀ p ∈ phrase, ∀ c ∈ ['\r', '\n'], Text.foldCase c ≠ Text.foldCase p)
    (below : Text.IsBelow tail) :
    after? phrase (text ++ tail) = (after? phrase text).map (· ++ tail) := by
  induction phrase generalizing text with
  | nil => rfl
  | cons p phrase ih =>
    obtain ⟨first, others⟩ := List.forall_mem_cons.mp inline
    cases text with
    | nil =>
      cases tail with
      | nil => rfl
      | cons c tail => exact if_neg (first c (by simpa using Text.isBreak_iff.mp (below c rfl)))
    | cons c text =>
      rw [List.cons_append, after?, after?, ih text others]
      split <;> rfl

include below

lemma endsBefore_append (kind : TokenKind) :
    endsBefore kind (text ++ tail) = endsBefore kind text := by
  cases text with
  | cons c text => rfl
  | nil =>
    cases tail with
    | nil => rfl
    | cons c tail =>
      rcases Text.isBreak_iff.mp (below c rfl) with rfl | rfl <;>
        (rw [List.nil_append, endsBefore, endsBefore]; cases kind.isHeader <;> rfl)

lemma matchPhrase_append {kind : TokenKind} (hk : kind ∈ kinds) {phrase : String}
    (hp : phrase ∈ kind.phrases) :
    matchPhrase (text ++ tail) kind phrase = matchPhrase text kind phrase := by
  rw [matchPhrase, matchPhrase, after?_append text (foldCase_ne_of_mem_phrases kind hk phrase hp) below]
  cases after? phrase.toList text with
  | none => rfl
  | some rest => simp only [Option.map_some, endsBefore_append rest below]

lemma at?_append : at? (text ++ tail) = at? text := by
  have same : candidates (text ++ tail) = candidates text :=
    List.flatMap_congr fun kind hk => List.filterMap_congr fun phrase hp =>
      matchPhrase_append text below hk hp
  rw [at?, at?, same]

end Keyword

namespace Fence

variable (text : List Char) {tail : List Char} (below : Text.IsBelow tail)

include below

lemma isPrefixOf_append (f : Fence) :
    f.marker.isPrefixOf (text ++ tail) = f.marker.isPrefixOf text :=
  Text.isPrefixOf_append_of_isBelow (by cases f <;> decide) text below

lemma at?_append : at? (text ++ tail) = at? text := by
  rw [at?, at?, isPrefixOf_append text below, isPrefixOf_append text below]

end Fence

namespace Scanner

variable {rest : List Char} (inline : ∀ c ∈ rest, isBreak c = false) {tail : List Char}
  (below : Text.IsBelow tail)

include inline below

lemma lineRest_append : lineRest (rest ++ tail) = rest := by
  rw [lineRest, Text.takeWhile_append_of_isBelow (by decide) rest below]
  exact List.takeWhile_eq_self_iff.mpr fun c hc => by simp [inline c hc]

lemma runLength_append (previous : Char) :
    runLength previous (rest ++ tail) = Lexeme.runLength previous rest := by
  induction rest generalizing previous with
  | nil =>
    cases tail with
    | nil => rfl
    | cons c tail => simp [runLength, Lexeme.runLength, isLayout, below c rfl]
  | cons c rest ih =>
    obtain ⟨first, others⟩ := List.forall_mem_cons.mp inline
    rw [List.cons_append, runLength, Lexeme.runLength, ih others, isLayout, first, Bool.or_false]

lemma untilBar_append (escaped : Bool) :
    untilBar escaped (rest ++ tail) = Lexeme.untilBar escaped rest := by
  induction rest generalizing escaped with
  | nil =>
    cases tail with
    | nil => rfl
    | cons c tail => exact if_pos (by simp [below c rfl])
  | cons c rest ih =>
    obtain ⟨first, others⟩ := List.forall_mem_cons.mp inline
    rw [List.cons_append, untilBar, Lexeme.untilBar, ih others, first, Bool.false_or]

lemma takeWhile_isLayout_append :
    (rest ++ tail).takeWhile (!isLayout ·) = rest.takeWhile (!isPad ·) := by
  rw [Text.takeWhile_append_of_isBelow (by decide) rest below]
  clear below
  induction rest with
  | nil => rfl
  | cons c rest ih =>
    obtain ⟨first, others⟩ := List.forall_mem_cons.mp inline
    rw [List.takeWhile_cons, List.takeWhile_cons, ih others, isLayout, first, Bool.or_false]

end Scanner

end FeatureFile
