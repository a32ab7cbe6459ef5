import Mathlib.Tactic.Lemma
import FeatureFile.Lexeme

namespace FeatureFile.Lexeme

def cut {σ : Type} (rule : σ → Char → List Char → Cut σ) : σ → Nat → List Char → List Lexeme
  | _, _, [] => []
  | s, 0, c :: rest =>
    ofCut (rule s c rest) c rest :: cut rule (rule s c rest).next (rule s c rest).more rest
  | s, n + 1, _ :: rest => cut rule s n rest

@[simp] lemma kind_ofCut {σ : Type} (cut : Cut σ) (c : Char) (rest : List Char) :
    (ofCut cut c rest).kind = cut.kind :=
  rfl

@[simp] lemma text_ofCut {σ : Type} (cut : Cut σ) (c : Char) (rest : List Char) :
    (ofCut cut c rest).text = c :: rest.take cut.more :=
  rfl

@[simp] lemma openQuote_ofCut {σ : Type} (cut : Cut σ) (c : Char) (rest : List Char) :
    (ofCut cut c rest).openQuote = cut.openQuote :=
  rfl

variable {σ : Type} (rule : σ → Char → List Char → Cut σ)

lemma flatMap_text_cut (s : σ) (n : Nat) (text : List Char) :
    (cut rule s n text).flatMap Lexeme.text = text.drop n := by
  induction text generalizing s n with
  | nil => simp [cut]
  | cons c rest ih =>
    cases n with
    | zero => simp [cut, ih]
    | succ n => simpa [cut] using ih s n

lemma text_ne_nil_of_mem_cut {s : σ} {n : Nat} {text : List Char} {l : Lexeme}
    (h : l ∈ cut rule s n text) : l.text ≠ [] := by
  induction text generalizing s n with
  | nil => simp [cut] at h
  | cons c rest ih =>
    cases n with
    | zero =>
      rcases List.mem_cons.mp h with rfl | h
      · simp
      · exact ih h
    | succ n => exact ih h

lemma cut_of_length_le (s : σ) {n : Nat} {text : List Char} (h : text.length ≤ n) :
    cut rule s n text = [] := by
  induction text generalizing n with
  | nil => simp [cut]
  | cons c rest ih =>
    cases n with
    | zero => simp at h
    | succ n => exact ih (by simpa using h)

lemma cut_eq_cut_drop (s : σ) (n : Nat) (text : List Char) :
    cut rule s n text = cut rule s 0 (text.drop n) := by
  induction text generalizing n with
  | nil => simp [cut]
  | cons c rest ih =>
    cases n with
    | zero => rfl
    | succ n => exact ih n

variable {rule}

lemma exists_of_mem_cut {s : σ} {n : Nat} {text : List Char} {l : Lexeme}
    (h : l ∈ cut rule s n text) : ∃ s c rest, l = ofCut (rule s c rest) c rest := by
  induction text generalizing s n with
  | nil => simp [cut] at h
  | cons c rest ih =>
    cases n with
    | zero =>
      rcases List.mem_cons.mp h with rfl | h
      · exact ⟨s, c, rest, rfl⟩
      · exact ih h
    | succ n => exact ih h

lemma kind_of_mem_cut {p : TokenKind → Prop} (hp : ∀ s c rest, p (rule s c rest).kind)
    {s : σ} {n : Nat}
    {text : List Char} {l : Lexeme} (h : l ∈ cut rule s n text) : p l.kind := by
  obtain ⟨s, c, rest, rfl⟩ := exists_of_mem_cut h
  exact hp s c rest

end FeatureFile.Lexeme
