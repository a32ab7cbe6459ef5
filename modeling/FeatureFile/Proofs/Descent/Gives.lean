import FeatureFile.Proofs.Descent.Items
import FeatureFile.Proofs.Descent.Sections

/-!
Readers on items. What a reader does to tokens is told by what it does to the items they hold, and
what comes next among the items is what is found ahead in the tokens.
-/

namespace FeatureFile

open Ahead

namespace Item

def nextKind (items : List Item) : TokenKind :=
  (items.head?.map kind).getD .eof

def kindOffTags : List Item → TokenKind
  | [] => .eof
  | i :: rest => if i.kind = .atSign then kindOffTags rest else i.kind

@[simp] lemma nextKind_nil : nextKind [] = .eof :=
  rfl

@[simp] lemma nextKind_line (l : Line) (items : List Item) : nextKind (.line l :: items) = l.kind :=
  rfl

lemma nextKind_block {b : Block} (lexed : b.IsLexed) (items : List Item) :
    nextKind (.block b :: items) = .fence :=
  lexed.fence

end Item

namespace Line

structure IsWhole (l : Line) : Prop where
  content : l.kind.isTrivia = false
  inline : ∀ t ∈ l.head :: l.tail, Reader.isInline t.kind
  closed : l.IsClosed

lemma IsLexed.isWhole {l : Line} (lexed : l.IsLexed) : l.IsWhole where
  content := lexed.content
  inline t ht := by
    have shape : Lexeme.Shape false ((l.head :: l.tail).map Token.kind) := lexed.shape
    have inline := shape.inline t.kind (List.mem_map_of_mem ht)
    simp [Reader.isInline, inline]
  closed := lexed.closed

end Line

namespace Holds

variable {eof : Token} {left front : List Token} {items : List Item}

lemma eq_eof (h : Holds eof left items) (ends : current left = .eof) :
    items = [] ∧ left = [eof] := by
  have same : left.dropWhile (·.kind.isTrivia) = left := by
    cases left with
    | nil => rfl
    | cons t left =>
      have kind : t.kind = .eof := ends
      exact List.dropWhile_cons_of_neg (by simp [kind, TokenKind.isTrivia])
  cases h with
  | done _ whole => exact ⟨rfl, same.symm.trans whole⟩
  | @line _ _ l _ whole lexed _ _ _ =>
    rw [← same, whole] at ends
    have inline := lexed.isWhole.inline l.head List.mem_cons_self
    rw [show l.head.kind = .eof from ends] at inline
    cases inline
  | @block _ _ b _ whole lexed _ _ _ _ =>
    rw [← same, whole] at ends
    have fence : b.opening.head.kind = .fence := lexed.fence
    rw [show b.opening.head.kind = .eof from ends] at fence
    cases fence

lemma isLexed (h : Holds eof left items) : ∀ i ∈ items, i.IsLexed := by
  induction h with
  | done => exact List.forall_mem_nil _
  | line _ lexed plain _ _ ih => exact List.forall_mem_cons.mpr ⟨⟨lexed, plain⟩, ih⟩
  | block _ lexed _ _ _ _ ih => exact List.forall_mem_cons.mpr ⟨lexed, ih⟩

lemma peek (h : Holds eof left items) : peek left = Item.nextKind items := by
  rw [peek_eq_current]
  cases h with
  | done last whole =>
    rw [whole]
    exact last
  | line whole => rw [whole]; rfl
  | block whole => rw [whole]; rfl

lemma place (h : Holds eof left items) :
    place (left.dropWhile (·.kind.isTrivia)) = Item.startOf eof.start items := by
  cases h with
  | done last whole => rw [whole]; rfl
  | line whole => rw [whole]; rfl
  | block whole => rw [whole]; rfl

end Holds

lemma Ahead.kindOffTags_append {front : List Token} (inline : ∀ t ∈ front, Reader.isInline t.kind)
    (left : List Token) : kindOffTags true (front ++ left) = kindOffTags true left := by
  induction front with
  | nil => rfl
  | cons t front ih =>
    obtain ⟨first, others⟩ := List.forall_mem_cons.mp inline
    have broken : t.kind ≠ .eol := by
      intro eol
      rw [eol] at first
      cases first
    rw [List.cons_append, kindOffTags, if_neg broken, ih others, Bool.true_or]
    simp

lemma Line.IsWhole.peekBehindTags {l : Line} (whole : l.IsWhole) {left : List Token}
    (last : l.ending = none → ∃ eof, left = [eof] ∧ eof.kind = .eof) :
    peekBehindTags (l.tokens ++ left) =
      if l.kind = .atSign then Ahead.peekBehindTags left else l.kind := by
  have content : l.head.kind.isTrivia = false := whole.content
  have broken : l.head.kind ≠ .eol := by
    intro eol
    rw [eol] at content
    cases content
  change _ = if l.head.kind = .atSign then _ else l.head.kind
  rw [Ahead.peekBehindTags, Line.tokens, List.append_assoc, List.cons_append, kindOffTags,
    if_neg broken]
  by_cases sign : l.head.kind = .atSign
  · rw [if_pos sign, if_pos sign, kindOffTags_append fun t ht =>
      whole.inline t (List.mem_cons_of_mem _ ht)]
    cases ending : l.ending with
    | some eol => simp [kindOffTags, whole.closed eol ending, Ahead.peekBehindTags]
    | none =>
      obtain ⟨eof, rfl, kind⟩ := last ending
      simp [kindOffTags, kind, Ahead.peekBehindTags, TokenKind.isTrivia]
  · simp [sign, content]

lemma Holds.peekBehindTags {eof : Token} {left : List Token} {items : List Item}
    (h : Holds eof left items) : peekBehindTags left = Item.kindOffTags items := by
  induction h with
  | done last whole =>
    rw [← peekBehindTags_dropWhile, whole]
    simp [Ahead.peekBehindTags, Ahead.kindOffTags, Item.kindOffTags, last, TokenKind.isTrivia]
  | @line left more l items whole lexed plain ends below ih =>
    rw [← peekBehindTags_dropWhile, whole, lexed.isWhole.peekBehindTags, ih]
    · rfl
    · intro none
      obtain ⟨-, rfl⟩ := below.eq_eof (ends none)
      exact ⟨eof, rfl, ends none⟩
  | @block left more b items whole lexed opening content ends below ih =>
    have fence : b.opening.head.kind = .fence := lexed.fence
    rw [← peekBehindTags_dropWhile, whole]
    simp [Ahead.peekBehindTags, Block.tokens, Line.tokens, Ahead.kindOffTags, Item.kindOffTags,
      fence, Item.kind, Item.head, TokenKind.isTrivia]

/-- Wherever the tokens hold the items, the reader gives the value and leaves the other items. -/
def Reader.Gives {α : Type} (eof : Token) (x : Reader α) (items : List Item) (a : α)
    (rest : List Item) : Prop :=
  ∀ left, Holds eof left items → (x.read left).1 = a ∧ Holds eof (x.read left).2 rest

namespace Reader

variable {α β : Type} {eof : Token} {items middle rest : List Item} {a : α} {b : β}

namespace Gives

lemma pure (a : α) : (Pure.pure a : Reader α).Gives eof items a items :=
  fun _ h => ⟨rfl, h⟩

lemma of_isLexed {x : Reader α} (h : (∀ i ∈ items, i.IsLexed) → x.Gives eof items a rest) :
    x.Gives eof items a rest :=
  fun left here => h here.isLexed left here

lemma bind {x : Reader α} {f : α → Reader β} (h : x.Gives eof items a middle)
    (h' : (f a).Gives eof middle b rest) : (x >>= f).Gives eof items b rest := by
  intro left here
  obtain ⟨rfl, between⟩ := h left here
  exact h' _ between

lemma map (f : α → β) {x : Reader α} (h : x.Gives eof items a rest) :
    (x >>= fun a => Pure.pure (f a)).Gives eof items (f a) rest :=
  h.bind (.pure _)

lemma congr {x : Reader α} {a' : α} (h : x.Gives eof items a rest) (same : a = a') :
    x.Gives eof items a' rest :=
  same ▸ h

lemma ask {look : List Token → α} (h : ∀ left, Holds eof left items → look left = a) :
    (Reader.ask look).Gives eof items a items :=
  fun left here => ⟨h left here, here⟩

lemma peekBehindTags : (Reader.ask peekBehindTags).Gives eof items (Item.kindOffTags items) items :=
  ask fun _ h => h.peekBehindTags

end Gives

lemma gives_anchor : anchor.Gives eof items (Item.startOf eof.start items) items := by
  intro left here
  rw [anchor, read_afterTrivia]
  exact ⟨here.place, here.dropWhile⟩

end Reader

namespace Loop

variable {α : Type} {eof : Token} {items middle rest : List Item} {a : α} {as : List α} {l : Loop α}

lemma gives_of_stops (stops : ∀ left, Holds eof left items → l.goes left = false) :
    l.run.Gives eof items [] items := by
  intro left here
  change (l.readAll left).1 = [] ∧ Holds eof (l.readAll left).2 items
  rw [l.readAll_of_stops (stops left here)]
  exact ⟨rfl, here⟩

lemma gives_of_goes (goes : ∀ left, Holds eof left items → l.goes left)
    (first : l.body.Gives eof items a middle) (others : l.run.Gives eof middle as rest) :
    l.run.Gives eof items (a :: as) rest := by
  intro left here
  obtain ⟨rfl, between⟩ := first left here
  obtain ⟨rfl, behind⟩ := others _ between
  change (l.readAll left).1 = _ ∧ Holds eof (l.readAll left).2 rest
  rw [l.readAll_of_goes (goes left here)]
  exact ⟨rfl, behind⟩

end Loop

end FeatureFile
