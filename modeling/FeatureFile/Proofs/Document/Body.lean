import Mathlib.Data.List.TakeWhile
import FeatureFile.Proofs.Document.Items

namespace FeatureFile

def TokenKind.isInner (k : TokenKind) : Bool :=
  !(k.isKeyword || k = .fence || k = .eol || k = .eof)

namespace Lexeme

lemma Shape.isInner {inside : Bool} {k : TokenKind} {ks : List TokenKind}
    (h : Shape inside (k :: ks)) :
    ∀ k' ∈ ks, k'.isInner := by
  have free (k : TokenKind) (h : k.isFree) : k.isInner := by cases k <;> first | rfl | cases h
  have verbatim (k : TokenKind) (h : k.isVerbatim) : k.isInner := by
    cases k <;> first | rfl | cases h
  have rowPart (k : TokenKind) (h : k.isRowPart) : k.isInner := by
    cases k <;> first | rfl | cases h
  have tagPart (k : TokenKind) (h : k.isTagPart) : k.isInner := by
    cases k <;> first | rfl | cases h
  cases inside with
  | true =>
    cases h with
    | content _ _ rest => exact fun k hk => verbatim k (rest k hk)
    | closing rest => exact fun k hk => free k (rest k hk)
  | false =>
    generalize whole : k :: ks = line at h
    cases h with
    | blank => cases whole
    | comment | remark word =>
      obtain ⟨rfl, rfl⟩ := List.cons.inj whole
      simp [TokenKind.isInner, TokenKind.isKeyword, TokenKind.isHeader, TokenKind.isStep]
    | header word rest =>
      obtain ⟨rfl, rfl⟩ := List.cons.inj whole
      exact List.forall_mem_cons.mpr ⟨rfl, fun k hk => free k (rest k hk)⟩
    | step word rest | prose _ _ rest =>
      obtain ⟨rfl, rfl⟩ := List.cons.inj whole
      exact fun k hk => free k (rest k hk)
    | row rest =>
      obtain ⟨rfl, rfl⟩ := List.cons.inj whole
      exact fun k hk => rowPart k (rest k hk)
    | fence rest =>
      obtain ⟨rfl, rfl⟩ := List.cons.inj whole
      exact fun k hk => verbatim k (rest k hk)
    | tags rest last =>
      obtain ⟨rfl, rfl⟩ := List.cons.inj whole
      refine List.forall_mem_append.mpr ⟨fun k hk => tagPart k (rest k hk), ?_⟩
      rcases last with rfl | rfl
      · simp
      · exact List.forall_mem_cons.mpr ⟨rfl, by simp⟩

lemma Shape.unfenced {inside : Bool} {k : TokenKind} {ks : List TokenKind}
    (h : Shape inside (k :: ks)) :
    ∀ k' ∈ ks, k' ≠ .fence := by
  rintro k' hk rfl
  cases h.isInner _ hk

lemma PlainShape.comment_of_isTrivia {k : TokenKind} {ks : List TokenKind}
    (h : PlainShape (k :: ks))
    (trivia : k.isTrivia) : k = .comment ∧ ks = [] := by
  generalize whole : k :: ks = line at h
  cases h with
  | blank => cases whole
  | comment => exact List.cons.inj whole
  | header word rest | step word rest | remark word | row rest | tags rest last | fence rest =>
    obtain ⟨rfl, -⟩ := List.cons.inj whole
    cases trivia
  | prose free word rest =>
    obtain ⟨rfl, -⟩ := List.cons.inj whole
    cases k <;> simp_all [TokenKind.isFree, TokenKind.isPad, TokenKind.isTrivia,
      TokenKind.isLiteral]

end Lexeme

namespace RawLine

variable {l : RawLine} {found : Line}

lemma content_eq (l : RawLine) : l.content = l.content.takeWhile (·.kind.isPad) ++ l.body :=
  List.takeWhile_append_dropWhile.symm

lemma dropWhile_body (l : RawLine) :
    l.body.dropWhile (·.kind.isTrivia) = l.content.dropWhile (·.kind.isTrivia) := by
  have pads : ∀ t ∈ l.content.takeWhile (·.kind.isPad), t.kind.isTrivia :=
    fun t ht => TokenKind.isTrivia_of_isPad
      (List.mem_takeWhile_imp (p := fun t : Token => t.kind.isPad) ht)
  conv_rhs => rw [content_eq, List.dropWhile_append_of_pos pads]

lemma body_of_turns (h : l.turns) : ∃ t rest, l.body = t :: rest ∧ t.kind = .fence := by
  cases body : l.body with
  | nil => simp [turns, shape, body] at h
  | cons t rest => exact ⟨t, rest, rfl, by simpa [turns, shape, body] using h⟩

lemma turns_of_significant?_none (h : l.significant? = none) : l.turns = false := by
  rw [Bool.eq_false_iff]
  intro turns
  obtain ⟨t, rest, body, fence⟩ := body_of_turns turns
  have other : t.kind.isTrivia = false := by simp [fence, TokenKind.isTrivia]
  have dropped := l.dropWhile_body
  rw [body, List.dropWhile_cons_of_neg (by simp [other])] at dropped
  simp [significant?, ← dropped] at h

lemma body_of_significant? (shape : Lexeme.PlainShape l.shape) (h : l.significant? = some found) :
    l.body = found.head :: found.tail := by
  have dropped := l.dropWhile_body
  rw [Line.dropWhile_of_significant? h] at dropped
  cases body : l.body with
  | nil => simp [body] at dropped
  | cons t rest =>
    rw [body] at dropped
    cases trivia : t.kind.isTrivia with
    | false => simpa [trivia] using dropped
    | true =>
      rw [RawLine.shape, body, List.map_cons] at shape
      obtain ⟨-, alone⟩ := shape.comment_of_isTrivia trivia
      simp [List.map_eq_nil_iff.mp alone, trivia] at dropped

lemma turns_of_significant? (shape : Lexeme.PlainShape l.shape) (h : l.significant? = some found) :
    l.turns = (found.kind = .fence) := by
  simp [turns, RawLine.shape, body_of_significant? shape h, Line.kind]

lemma kind_of_significant? (shape : Lexeme.FencedShape l.shape) (h : l.significant? = some found) :
    found.kind = .text ∨ found.kind = .fence := by
  have dropped := l.dropWhile_body
  rw [Line.dropWhile_of_significant? h] at dropped
  cases body : l.body with
  | nil => simp [body] at dropped
  | cons t rest =>
    rw [RawLine.shape, body, List.map_cons] at shape
    have kind : t.kind = .text ∨ t.kind = .fence := by
      generalize t.kind = k at shape ⊢
      cases shape with
      | content verbatim word _ =>
        left
        simpa [TokenKind.isVerbatim, word] using verbatim
      | closing _ => exact .inr rfl
    have content : t.kind.isTrivia = false := by
      rcases kind with kind | kind <;> simp [kind, TokenKind.isTrivia]
    rw [body, List.dropWhile_cons_of_neg (by simp [content])] at dropped
    obtain ⟨rfl, -⟩ := List.cons.inj dropped
    exact kind

lemma turns_of_closing?_none (h : Item.closing? l = none) : l.turns = false := by
  rw [Bool.eq_false_iff]
  intro turns
  obtain ⟨t, rest, body, fence⟩ := body_of_turns turns
  rw [RawLine.body] at body
  simp [Item.closing?, body, fence] at h

lemma turns_of_closing? {indent more : List Token} {fence : Token}
    (h : Item.closing? l = some (indent, fence, more)) : l.turns := by
  obtain ⟨-, fenced, body⟩ := Item.closing?_eq_some h
  simp [turns, shape, body, fenced]

end RawLine

namespace Scanned

variable {inside : Bool} {l : RawLine} {rest : List RawLine}

lemma isClosed (h : Scanned inside (l :: rest)) : l.IsClosed := by
  obtain _ | ⟨closed, -, -⟩ := h
  exact closed

lemma shape (h : Scanned inside (l :: rest)) : Lexeme.Shape inside l.shape := by
  obtain _ | ⟨-, shape, -⟩ := h
  exact shape

lemma rest_of_turns (h : Scanned inside (l :: rest)) (turns : l.turns) :
    Scanned (!inside) rest := by
  obtain _ | ⟨-, -, below⟩ := h
  rwa [if_pos turns] at below

lemma rest_of_stays (h : Scanned inside (l :: rest)) (stays : l.turns = false) :
    Scanned inside rest := by
  obtain _ | ⟨-, -, below⟩ := h
  rwa [if_neg (by simp [stays])] at below

lemma turns_iff {found : Line} (h : Scanned false (l :: rest))
    (here : l.significant? = some found) :
    l.turns ↔ found.kind = .fence := by
  rw [RawLine.turns_of_significant? h.shape here]

lemma stays {found : Line} (h : Scanned false (l :: rest)) (here : l.significant? = some found)
    (other : found.kind ≠ .fence) : l.turns = false :=
  Bool.eq_false_iff.mpr (mt (h.turns_iff here).mp other)

end Scanned

end FeatureFile
