import FeatureFile.Proofs.FreeText.Scan
import FeatureFile.Proofs.Token.Place

namespace FeatureFile

open Text (isPad dropEnd trim)

namespace Text

variable {p : Char → Bool}

lemma dropEnd_of_all {text : List Char} (all : ∀ c ∈ text, p c) : dropEnd p text = [] := by
  induction text with
  | nil => rfl
  | cons c text ih =>
    obtain ⟨first, others⟩ := List.forall_mem_cons.mp all
    rw [dropEnd, ih others]
    exact if_pos first

lemma dropEnd_append_of_nil (front : List Char) {back : List Char} (none : dropEnd p back = []) :
    dropEnd p (front ++ back) = dropEnd p front := by
  induction front with
  | nil => exact none
  | cons c front ih => rw [List.cons_append, dropEnd, dropEnd, ih]

lemma dropEnd_append_of_ne_nil (front : List Char) {back : List Char} (some : dropEnd p back ≠ []) :
    dropEnd p (front ++ back) = front ++ dropEnd p back := by
  induction front with
  | nil => rfl
  | cons c front ih =>
    rw [List.cons_append, dropEnd, ih]
    split
    next none => exact absurd (List.append_eq_nil_iff.mp none).2 some
    next => rfl

lemma dropEnd_of_last {text : List Char} {c : Char} (last : text.getLast? = some c)
    (word : p c = false) : dropEnd p text = text := by
  obtain ⟨front, rfl⟩ := List.getLast?_eq_some_iff.mp last
  have one : dropEnd p [c] = [c] := by simp [dropEnd, word]
  rw [dropEnd_append_of_ne_nil front (by simp [one]), one]

end Text

namespace Token

structure IsPiece (t : Token) : Prop where
  nonempty : t.text ≠ []
  pad : t.kind.isPad → ∀ c ∈ t.text, isPad c
  first : t.kind.isPad = false → ∀ c ∈ t.text.head?, isPad c = false
  last : t.kind.isPad = false → ∀ c ∈ t.text.getLast?, isPad c = false

variable {t : Token} {ts : List Token}

lemma flatMap_dropWhile (pieces : ∀ t ∈ ts, t.IsPiece) :
    (ts.dropWhile (·.kind.isPad)).flatMap Token.text = (ts.flatMap Token.text).dropWhile isPad := by
  induction ts with
  | nil => rfl
  | cons t ts ih =>
    obtain ⟨piece, others⟩ := List.forall_mem_cons.mp pieces
    cases pad : t.kind.isPad with
    | true =>
      rw [List.dropWhile_cons_of_pos (by simpa using pad), ih others, List.flatMap_cons,
        List.dropWhile_append_of_pos (piece.pad pad)]
    | false =>
      obtain ⟨c, rest, text⟩ := List.exists_cons_of_ne_nil piece.nonempty
      have word : isPad c = false := piece.first pad c (by rw [text]; rfl)
      rw [List.dropWhile_cons_of_neg (by simp [pad]), List.flatMap_cons, text, List.cons_append,
        List.dropWhile_cons_of_neg (by simp [word])]

lemma flatMap_text_ne_nil (pieces : ∀ t ∈ ts, t.IsPiece) (some : ts ≠ []) :
    ts.flatMap Token.text ≠ [] := by
  obtain ⟨t, rest, rfl⟩ := List.exists_cons_of_ne_nil some
  rw [List.flatMap_cons]
  exact List.append_ne_nil_of_left_ne_nil (pieces t List.mem_cons_self).nonempty _

lemma flatMap_dropEnd (pieces : ∀ t ∈ ts, t.IsPiece) :
    (dropEnd (·.kind.isPad) ts).flatMap Token.text = dropEnd isPad (ts.flatMap Token.text) := by
  induction ts with
  | nil => rfl
  | cons t ts ih =>
    obtain ⟨piece, others⟩ := List.forall_mem_cons.mp pieces
    rw [dropEnd, List.flatMap_cons]
    split
    next none =>
      have behind : dropEnd isPad (ts.flatMap Token.text) = [] := by rw [← ih others, none]; rfl
      rw [Text.dropEnd_append_of_nil _ behind]
      cases pad : t.kind.isPad with
      | true => rw [if_pos rfl, Text.dropEnd_of_all (piece.pad pad)]; rfl
      | false =>
        obtain ⟨c, last⟩ := Option.isSome_iff_exists.mp (List.getLast?_isSome.mpr piece.nonempty)
        rw [if_neg (by simp), Text.dropEnd_of_last last (piece.last pad c last)]
        exact List.append_nil _
    next some =>
      have kept : dropEnd isPad (ts.flatMap Token.text) ≠ [] := by
        rw [← ih others]
        exact flatMap_text_ne_nil (fun u hu => others u (Text.mem_of_mem_dropEnd hu)) some
      rw [Text.dropEnd_append_of_ne_nil _ kept, List.flatMap_cons, ih others]

theorem flatMap_trim (pieces : ∀ t ∈ ts, t.IsPiece) :
    (dropEnd (·.kind.isPad) (ts.dropWhile (·.kind.isPad))).flatMap Token.text =
      trim isPad (ts.flatMap Token.text) := by
  rw [flatMap_dropEnd fun t ht => pieces t ((List.dropWhile_sublist _).subset ht),
    flatMap_dropWhile pieces, trim]

end Token

namespace Literal

variable {c : Char} {rest : List Char}

lemma isPad_of_isDigit (digit : c.isDigit) : isPad c = false := by
  rw [← Bool.not_eq_true, Text.isPad_iff]
  rintro (rfl | rfl) <;> cases digit

lemma isPad_of_isQuote (quote : isQuote c) : isPad c = false := by
  rcases Bool.or_eq_true_iff.mp quote with same | same <;>
    · rw [of_decide_eq_true same]
      rfl

lemma isPad_lastOf_scan {kind : TokenKind} {more : Nat} (found : scan c rest = some (kind, more)) :
    isPad (Lexeme.lastOf c rest more) = false := by
  rw [scan] at found
  split at found
  next quote =>
    obtain ⟨n, closed, same⟩ := Option.map_eq_some_iff.mp found
    obtain ⟨-, rfl⟩ := Prod.mk.inj same
    rw [lastOf_string closed]
    exact isPad_of_isQuote quote
  next =>
    split at found
    next =>
      obtain ⟨n, closed, same⟩ := Option.map_eq_some_iff.mp found
      obtain ⟨-, rfl⟩ := Prod.mk.inj same
      rw [lastOf_placeholder closed]
      rfl
    next =>
      split at found
      next digit => exact isPad_of_isDigit (isDigit_lastOf_number digit found)
      next => cases found

end Literal

namespace Lexeme

variable {c : Char} {rest : List Char}

lemma isPad_lastOf_run (word : isPad c = false) :
    isPad (lastOf c rest (runLength c rest)) = false := by
  induction rest generalizing c with
  | nil => exact word
  | cons d rest ih =>
    rw [runLength]
    split
    case isTrue => exact word
    case isFalse inner =>
      rw [lastOf_cons]
      exact ih (Bool.or_eq_false_iff.mp (Bool.eq_false_iff.mpr inner)).1

lemma isPad_lastOf_freeText {previous : Option Char} (word : isPad c = false) :
    isPad (lastOf c rest (freeText previous c rest).more) = false := by
  rw [freeText, if_neg (by simp [word])]
  split
  · split
    next found => exact Literal.isPad_lastOf_scan found
    next => exact isPad_lastOf_run word
  · exact isPad_lastOf_run word

lemma getLast?_ofCut (c : Char) (rest : List Char) (more : Nat) :
    (c :: rest.take more).getLast? = some (lastOf c rest more) := by
  rw [List.getLast?_cons]
  rfl

end Lexeme

lemma Token.isPiece_of_mem_place {m : Mark} {previous : Option Char} {n : Nat} {text : List Char} :
    ∀ t ∈ Token.place m (Lexeme.cut Lexeme.freeText previous n text), t.IsPiece := by
  intro t ht
  obtain ⟨front, l, back, whole, rfl⟩ := exists_of_mem_place ht
  have mem : l ∈ Lexeme.cut Lexeme.freeText previous n text := by
    rw [whole]
    exact List.mem_append_right front List.mem_cons_self
  obtain ⟨q, c, rest, rfl⟩ := Lexeme.exists_of_mem_cut mem
  have kind := (Lexeme.kind_freeText q c rest).2
  cases pad : isPad c with
  | true =>
    have padded := kind.mpr pad
    refine ⟨List.cons_ne_nil _ _, fun _ => ?_, fun word => ?_, fun word => ?_⟩
    · have alone : (Lexeme.freeText q c rest).more = 0 := by rw [Lexeme.freeText, if_pos pad]
      simp [Lexeme.ofCut, alone, pad]
    · exact absurd padded (Bool.eq_false_iff.mp word)
    · exact absurd padded (Bool.eq_false_iff.mp word)
  | false =>
    have word : (Lexeme.freeText q c rest).kind.isPad = false :=
      Bool.eq_false_iff.mpr fun padded => Bool.eq_false_iff.mp pad (kind.mp padded)
    refine ⟨List.cons_ne_nil _ _, fun padded => ?_, fun _ d hd => ?_, fun _ d hd => ?_⟩
    · exact absurd padded (Bool.eq_false_iff.mp word)
    · obtain rfl := Option.some.inj hd
      exact pad
    · rw [Lexeme.ofCut, Lexeme.getLast?_ofCut] at hd
      obtain rfl := Option.some.inj hd
      exact Lexeme.isPad_lastOf_freeText pad

structure Token.IsFreeText (ts : List Token) (text : List Char) : Prop where
  pieces : ∀ t ∈ ts, t.IsPiece
  free : ∀ t ∈ ts, t.kind.isFree
  text : ts.flatMap Token.text = text

lemma Token.isFreeText_place (m : Mark) (previous : Option Char) (text : List Char) :
    IsFreeText (place m (Lexeme.cut Lexeme.freeText previous 0 text)) text := by
  refine ⟨isPiece_of_mem_place, kind_of_mem_place Lexeme.isFree_of_mem_cut, ?_⟩
  rw [flatMap_text_place, Lexeme.flatMap_text_cut, List.drop_zero]

end FeatureFile
