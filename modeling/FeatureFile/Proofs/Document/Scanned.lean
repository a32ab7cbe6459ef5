import FeatureFile.Document.Line
import FeatureFile.Proofs.Token.Stream

namespace FeatureFile

namespace RawLine

def body (l : RawLine) : List Token :=
  l.content.dropWhile (·.kind.isPad)

def shape (l : RawLine) : List TokenKind :=
  l.body.map Token.kind

def turns (l : RawLine) : Bool :=
  l.shape.head? = some .fence

structure IsClosed (l : RawLine) : Prop where
  content : ∀ t ∈ l.content, t.kind ≠ .eol
  ending : ∀ t ∈ l.ending, t.kind = .eol

lemma flatMap_tokens_prepend (t : Token) (ls : List RawLine) :
    (prepend t ls).flatMap tokens = t :: ls.flatMap tokens := by
  cases ls <;> simp [prepend, tokens]

lemma flatMap_tokens_ofTokens (ts : List Token) : (ofTokens ts).flatMap tokens = ts := by
  induction ts with
  | nil => rfl
  | cons t ts ih =>
    rw [ofTokens]
    split
    · simp [tokens, ih]
    · rw [flatMap_tokens_prepend, ih]

lemma isClosed_prepend {t : Token} (ht : t.kind ≠ .eol) {ls : List RawLine}
    (h : ∀ l ∈ ls, l.IsClosed) :
    ∀ l ∈ prepend t ls, l.IsClosed := by
  cases ls with
  | nil => simpa [prepend] using IsClosed.mk (by simpa using ht) (by simp)
  | cons l ls =>
    obtain ⟨first, rest⟩ := List.forall_mem_cons.mp h
    exact List.forall_mem_cons.mpr ⟨⟨List.forall_mem_cons.mpr ⟨ht, first.content⟩,
      first.ending⟩, rest⟩

lemma isClosed_ofTokens (ts : List Token) : ∀ l ∈ ofTokens ts, l.IsClosed := by
  induction ts with
  | nil => simp [ofTokens]
  | cons t ts ih =>
    rw [ofTokens]
    split
    case isTrue eol => exact List.forall_mem_cons.mpr ⟨⟨by simp, by simpa using eol⟩, ih⟩
    case isFalse other => exact isClosed_prepend other ih

lemma ofTokens_inline {ts : List Token} (h : ∀ t ∈ ts, t.kind ≠ .eol) (nonempty : ts ≠ []) :
    ofTokens ts = [⟨ts, none⟩] := by
  induction ts with
  | nil => exact absurd rfl nonempty
  | cons t ts ih =>
    obtain ⟨first, rest⟩ := List.forall_mem_cons.mp h
    rw [ofTokens, if_neg first]
    cases ts with
    | nil => rfl
    | cons u us => rw [ih rest (by simp), prepend]

lemma ofTokens_append_eol {ts : List Token} (h : ∀ t ∈ ts, t.kind ≠ .eol) {eol : Token}
    (heol : eol.kind = .eol) (rest : List Token) :
    ofTokens (ts ++ eol :: rest) = ⟨ts, some eol⟩ :: ofTokens rest := by
  induction ts with
  | nil => simp [ofTokens, heol]
  | cons t ts ih =>
    obtain ⟨first, others⟩ := List.forall_mem_cons.mp h
    rw [List.cons_append, ofTokens, if_neg first, ih others, prepend]

end RawLine

/-- Lines as the scan leaves them, the first of which begins inside of a doc string or not. -/
inductive Scanned : Bool → List RawLine → Prop
  | nil (inside : Bool) : Scanned inside []
  | cons {inside : Bool} {l : RawLine} {rest : List RawLine} :
      l.IsClosed → Lexeme.Shape inside l.shape →
      Scanned (if l.turns then !inside else inside) rest →
      Scanned inside (l :: rest)

namespace Scanned

lemma map_kind_body {l : RawLine} {pads body : List TokenKind}
    (whole : l.content.map Token.kind = pads ++ body)
    (padded : ∀ k ∈ pads, k.isPad) (unpadded : ∀ k ∈ body.head?, k.isPad = false) :
    l.shape = body := by
  have pulled : l.shape = (l.content.map Token.kind).dropWhile (·.isPad) := by
    simp [RawLine.shape, RawLine.body, List.dropWhile_map, Function.comp_def]
  rw [pulled, whole, Lexeme.dropWhile_append_of_unpadded padded unpadded]

lemma inline_of_kinds {within : Option Fence} {content : List Char} {ts : List Token}
    (kinds : ts.map Token.kind = Lexeme.kinds (Lexeme.ofContent within content)) :
    ∀ t ∈ ts, t.kind ≠ .eol := by
  intro t h
  have mem : t.kind ∈ ts.map Token.kind := List.mem_map_of_mem h
  rw [kinds] at mem
  exact (Lexeme.inline_of_mem_ofContent _ mem).1

lemma inline_place (m : Mark) {within : Option Fence} {content : List Char} :
    ∀ t ∈ Token.place m (Lexeme.ofContent within content), t.kind ≠ .eol :=
  inline_of_kinds (Token.map_kind_place _ _)

lemma shape_of_kinds {within : Option Fence} {content : List Char} {ts : List Token}
    (kinds : ts.map Token.kind = Lexeme.kinds (Lexeme.ofContent within content))
    (ending : Option Token) :
    Lexeme.Shape within.isSome (RawLine.shape ⟨ts, ending⟩) ∧
      (Fence.behind within (content.dropWhile Text.isPad)).isSome =
        if RawLine.turns ⟨ts, ending⟩ then !within.isSome else within.isSome := by
  obtain ⟨pads, body, whole, padded, shape, turns⟩ := Lexeme.shape_ofContent within content
  have same : RawLine.shape ⟨ts, ending⟩ = body :=
    map_kind_body (kinds.trans whole) padded shape.unpadded
  refine ⟨same ▸ shape, ?_⟩
  simpa only [RawLine.turns, same, decide_eq_true_eq] using turns

lemma cons_of_ofContent {within : Option Fence} {content : List Char} {ts : List Token}
    {ending : Option Token} {rest : List RawLine}
    (kinds : ts.map Token.kind = Lexeme.kinds (Lexeme.ofContent within content))
    (ends : ∀ t ∈ ending, t.kind = .eol)
    (more : Scanned (Fence.behind within (content.dropWhile Text.isPad)).isSome rest) :
    Scanned within.isSome (⟨ts, ending⟩ :: rest) := by
  obtain ⟨shape, turns⟩ := shape_of_kinds kinds ending
  exact .cons ⟨inline_of_kinds kinds, ends⟩ shape (turns ▸ more)

lemma ofTokens_place_last (m : Mark) (within : Option Fence) {content : List Char}
    (nonempty : content ≠ []) :
    RawLine.ofTokens (Token.place m (Lexeme.ofLines within [⟨content, []⟩])) =
      [⟨Token.place m (Lexeme.ofContent within content), none⟩] := by
  have some : Token.place m (Lexeme.ofContent within content) ≠ [] := by
    intro h
    have none : Lexeme.ofContent within content = [] := by
      simpa [h] using (Token.map_text_place m (Lexeme.ofContent within content)).symm
    have whole := Lexeme.flatMap_text_ofContent within content
    exact nonempty (by simpa [none] using whole.symm)
  simp only [Lexeme.ofLines, Lexeme.ofEnding, List.append_nil,
    RawLine.ofTokens_inline (inline_place _) some]

lemma ofTokens_place_cons (m : Mark) (within : Option Fence) {l : Text.SourceLine}
    (ending : l.ending ≠ []) (rest : List Text.SourceLine) :
    ∃ eol n, eol.kind = .eol ∧
      RawLine.ofTokens (Token.place m (Lexeme.ofLines within (l :: rest))) =
        ⟨Token.place m (Lexeme.ofContent within l.content), some eol⟩ ::
          RawLine.ofTokens (Token.place n
            (Lexeme.ofLines (Fence.behind within (l.content.dropWhile Text.isPad)) rest)) := by
  obtain ⟨e, es, he⟩ := List.exists_cons_of_ne_nil ending
  simp only [Lexeme.ofLines, he, Lexeme.ofEnding, List.append_assoc, List.cons_append,
    List.nil_append, Token.place_append, Token.place]
  exact ⟨_, _, rfl, RawLine.ofTokens_append_eol (inline_place _) rfl _⟩

lemma ofTokens_place {ls : List Text.SourceLine} (cut : Text.Cuts ls) (m : Mark)
    (within : Option Fence) :
    Scanned within.isSome (RawLine.ofTokens (Token.place m (Lexeme.ofLines within ls))) := by
  induction cut generalizing m within with
  | nil => exact .nil _
  | last nonempty =>
    rw [ofTokens_place_last m within nonempty]
    exact cons_of_ofContent (Token.map_kind_place _ _) (by simp) (.nil _)
  | @cons l rest ending _ ih =>
    obtain ⟨eol, n, kind, lines⟩ := ofTokens_place_cons m within ending rest
    rw [lines]
    exact cons_of_ofContent (Token.map_kind_place _ _) (by simpa using kind) (ih _ _)

end Scanned

theorem scanned_ofText (text : List Char) :
    Scanned false (RawLine.ofTokens (Stream.ofText text).content) := by
  rw [Stream.content_ofText]
  exact Scanned.ofTokens_place (Text.cuts_lines _) _ none

end FeatureFile
