import Mathlib.Data.List.Chain
import FeatureFile.Proofs.Lexeme.Rules
import FeatureFile.Proofs.Lexeme.Cut

namespace FeatureFile

namespace Text

lemma dropEnd_append {α : Type} (p : α → Bool) (xs : List α) :
    ∃ gone, dropEnd p xs ++ gone = xs ∧ ∀ a ∈ gone, p a := by
  induction xs with
  | nil => exact ⟨[], rfl, by simp⟩
  | cons a xs ih =>
    obtain ⟨gone, whole, all⟩ := ih
    rw [dropEnd]
    split
    case h_1 none =>
      rw [none, List.nil_append] at whole
      subst whole
      by_cases h : p a
      · exact ⟨a :: gone, by simp [h], List.forall_mem_cons.mpr ⟨h, all⟩⟩
      · exact ⟨gone, by simp [h], all⟩
    case h_2 => exact ⟨gone, by rw [List.cons_append, whole], all⟩

lemma mem_of_mem_dropEnd {α : Type} {p : α → Bool} {xs : List α} {a : α} (h : a ∈ dropEnd p xs) :
    a ∈ xs := by
  obtain ⟨gone, whole, -⟩ := dropEnd_append p xs
  exact whole ▸ List.mem_append_left _ h

end Text

namespace Lexeme

open Text

def IsApart (ks : List TokenKind) : Prop :=
  (ks.filter (!·.isPad)).IsChain fun a b => a = .cell → b ≠ .cell

lemma isPad_padKind (c : Char) : (padKind c).isPad := by
  rw [padKind]
  split <;> rfl

lemma untilBar_append (escaped : Bool) (text : List Char) :
    ∃ after, untilBar escaped text ++ after = text ∧ ∀ c ∈ after.head?, c = '|' := by
  induction text generalizing escaped with
  | nil => exact ⟨[], rfl, by simp⟩
  | cons c rest ih =>
    rw [untilBar]
    split
    case isTrue bar =>
      refine ⟨c :: rest, rfl, ?_⟩
      simp_all
    case isFalse =>
      obtain ⟨after, whole, ends⟩ := ih (c = '\\' && !escaped)
      exact ⟨after, by rw [List.cons_append, whole], ends⟩

lemma tableRow_pad {c : Char} (pad : Text.isPad c) (rest : List Char) :
    tableRow () c rest = ⟨padKind c, 0, (), none⟩ := by
  rw [tableRow, if_pos pad]

lemma tableRow_cell {c : Char} (word : Text.isPad c = false) (inner : c ≠ '|') (rest : List Char) :
    tableRow () c rest =
      ⟨.cell, (dropEnd Text.isPad (untilBar (c = '\\') rest)).length, (), none⟩ := by
  rw [tableRow, if_neg (by simp [word]), if_neg inner]

def rowKinds (text : List Char) : List TokenKind :=
  ((cut tableRow () 0 text).map Lexeme.kind).filter (!·.isPad)

lemma rowKinds_append_pads {pads : List Char} (all : ∀ c ∈ pads, Text.isPad c) (text : List Char) :
    rowKinds (pads ++ text) = rowKinds text := by
  induction pads with
  | nil => rfl
  | cons c pads ih =>
    obtain ⟨first, others⟩ := List.forall_mem_cons.mp all
    rw [← ih others]
    simp [rowKinds, cut, tableRow_pad first, isPad_padKind]

lemma head?_rowKinds_bar (text : List Char) (bar : ∀ c ∈ text.head?, c = '|') :
    (rowKinds text).head? ≠ some .cell := by
  cases text with
  | nil => simp [rowKinds, cut]
  | cons c rest =>
    obtain rfl := bar c rfl
    simp [rowKinds, cut, tableRow, Text.isPad, TokenKind.isPad]

lemma head?_rowKinds_behind (escaped : Bool) (rest : List Char) :
    (rowKinds (rest.drop (dropEnd Text.isPad (untilBar escaped rest)).length)).head? ≠
      some .cell := by
  obtain ⟨after, whole, bar⟩ := untilBar_append escaped rest
  obtain ⟨pads, inner, all⟩ := dropEnd_append Text.isPad (untilBar escaped rest)
  have behind : rest.drop (dropEnd Text.isPad (untilBar escaped rest)).length = pads ++ after := by
    have cut : rest = dropEnd Text.isPad (untilBar escaped rest) ++ (pads ++ after) := by
      rw [← List.append_assoc, inner, whole]
    conv_lhs => enter [2]; rw [cut]
    exact List.drop_left
  rw [behind, rowKinds_append_pads all]
  exact head?_rowKinds_bar after bar

lemma isApart_cut (n : Nat) (text : List Char) :
    IsApart ((cut tableRow () n text).map Lexeme.kind) := by
  induction text generalizing n with
  | nil => simp [cut, IsApart]
  | cons c rest ih =>
    cases n with
    | succ n => exact ih n
    | zero =>
      rw [cut, List.map_cons]
      cases pad : Text.isPad c with
      | true =>
        have padded := isPad_padKind c
        simpa [IsApart, tableRow_pad pad, padded] using ih 0
      | false =>
        by_cases bar : c = '|'
        · subst bar
          exact List.isChain_cons.mpr ⟨by rintro _ _ ⟨⟩, ih 0⟩
        · have next := head?_rowKinds_behind (c = '\\') rest
          rw [rowKinds, ← cut_eq_cut_drop] at next
          rw [tableRow_cell pad bar]
          refine List.isChain_cons.mpr ⟨?_, ih _⟩
          rintro k hk - rfl
          exact next hk

end Lexeme

end FeatureFile
