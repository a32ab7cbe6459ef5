import FeatureFile.Document.Item
import FeatureFile.Proofs.Alike.Lists

/-!
Texts that read alike. A likeness takes tokens of one text for tokens of another. Since a document
is read from the kinds of its tokens, alike tokens make alike lines and items.
-/

namespace FeatureFile

structure Likeness where
  token : Token → Token → Prop
  mark : Mark → Mark → Prop
  kind {t u : Token} : token t u → t.kind = u.kind
  start {t u : Token} : token t u → mark t.start u.start
  stop {t u : Token} : token t u → mark t.stop u.stop

variable {L : Likeness}

namespace Likeness

lemma kind_eq (p : TokenKind → Bool) (t u : Token) (h : L.token t u) : p t.kind = p u.kind :=
  congrArg p (L.kind h)

end Likeness

namespace Line

structure Alike (L : Likeness) (l m : Line) : Prop where
  head : L.token l.head m.head
  tail : List.Forall₂ L.token l.tail m.tail
  ending : Option.Rel L.token l.ending m.ending

variable {l m : Line}

lemma Alike.kind (h : Alike L l m) : l.kind = m.kind :=
  L.kind h.head

lemma Alike.content (h : Alike L l m) :
    List.Forall₂ L.token (l.head :: l.tail) (m.head :: m.tail) :=
  .cons h.head h.tail

lemma Alike.tokens (h : Alike L l m) : List.Forall₂ L.token l.tokens m.tokens :=
  List.rel_append h.content h.ending.forall₂_toList

lemma Alike.start (h : Alike L l m) : L.mark l.start m.start :=
  L.start h.head

lemma alike_lastOf {t u : Token} {ts us : List Token} (head : L.token t u)
    (rest : List.Forall₂ L.token ts us) : L.token (lastOf t ts) (lastOf u us) := by
  rw [lastOf, lastOf]
  have last := rest.getLast?
  generalize ts.getLast? = a at last
  generalize us.getLast? = b at last
  cases last with
  | some here => exact here
  | none => exact head

lemma Alike.stop (h : Alike L l m) : L.mark l.stop m.stop := by
  rw [Line.stop, Line.stop]
  have ending := h.ending
  generalize l.ending = a at ending
  generalize m.ending = b at ending
  cases ending with
  | some here => exact L.stop here
  | none => exact L.stop (alike_lastOf h.head h.tail)

end Line

namespace RawLine

structure Alike (L : Likeness) (l m : RawLine) : Prop where
  content : List.Forall₂ L.token l.content m.content
  ending : Option.Rel L.token l.ending m.ending

variable {l m : RawLine}

lemma Alike.tokens (h : Alike L l m) : List.Forall₂ L.token l.tokens m.tokens :=
  List.rel_append h.content h.ending.forall₂_toList

lemma alike_prepend {t u : Token} {ls ms : List RawLine} (first : L.token t u)
    (h : List.Forall₂ (Alike L) ls ms) : List.Forall₂ (Alike L) (prepend t ls) (prepend u ms) := by
  cases h with
  | nil => exact .cons ⟨.cons first .nil, .none⟩ .nil
  | cons line rest => exact .cons ⟨.cons first line.content, line.ending⟩ rest

lemma alike_ofTokens {ts us : List Token} (h : List.Forall₂ L.token ts us) :
    List.Forall₂ (Alike L) (ofTokens ts) (ofTokens us) := by
  induction h with
  | nil => exact .nil
  | @cons t u ts us first _ ih =>
    rw [ofTokens, ofTokens, ← L.kind first]
    split
    · exact .cons ⟨.nil, .some first⟩ ih
    · exact alike_prepend first ih

lemma alike_significant? {content content' : List Token} {ending ending' : Option Token}
    (rest : List.Forall₂ L.token (content.dropWhile (·.kind.isTrivia))
      (content'.dropWhile (·.kind.isTrivia)))
    (ends : Option.Rel L.token ending ending') :
    Option.Rel (Line.Alike L) (significant? ⟨content, ending⟩)
      (significant? ⟨content', ending'⟩) := by
  rw [significant?, significant?]
  generalize content.dropWhile (·.kind.isTrivia) = ts at rest
  generalize content'.dropWhile (·.kind.isTrivia) = us at rest
  cases rest with
  | nil => exact .none
  | cons head tail => exact .some ⟨head, tail, ends⟩

lemma Alike.significant? (h : Alike L l m) :
    Option.Rel (Line.Alike L) l.significant? m.significant? :=
  alike_significant? (h.content.dropWhile (L.kind_eq TokenKind.isTrivia)) h.ending

end RawLine

structure Block.Alike (L : Likeness) (b c : Block) : Prop where
  opening : b.opening.Alike L c.opening
  content : List.Forall₂ L.token b.content c.content
  closing : Option.Rel (fun p q => List.Forall₂ L.token p.1 q.1 ∧ L.token p.2 q.2)
    b.closing c.closing

namespace Item

inductive Alike (L : Likeness) : Item → Item → Prop
  | line {l m : Line} : l.Alike L m → Alike L (.line l) (.line m)
  | block {b c : Block} : b.Alike L c → Alike L (.block b) (.block c)

variable {i j : Item} {items items' : List Item}

lemma Alike.head (h : Alike L i j) : L.token i.head j.head := by
  cases h with
  | line line => exact line.head
  | block block => exact block.opening.head

lemma Alike.kind (h : Alike L i j) : i.kind = j.kind :=
  L.kind h.head

lemma Alike.tokens (h : Alike L i j) : List.Forall₂ L.token i.tokens j.tokens := by
  cases h with
  | line line => exact line.tokens
  | @block b c block =>
    refine List.rel_append (List.rel_append block.opening.tokens block.content) ?_
    have closing := block.closing
    generalize b.closing = x at closing
    generalize c.closing = y at closing
    cases closing with
    | some here => exact List.rel_append here.1 (.cons here.2 .nil)
    | none => exact .nil

lemma alike_startOf {eof eof' : Mark} (stop : L.mark eof eof')
    (h : List.Forall₂ (Alike L) items items') :
    L.mark (startOf eof items) (startOf eof' items') := by
  cases h with
  | nil => exact stop
  | cons first _ => exact L.start first.head

lemma alike_closing? {l m : RawLine} (h : l.Alike L m) :
    Option.Rel (fun p q => List.Forall₂ L.token p.1 q.1 ∧ L.token p.2.1 q.2.1 ∧
      List.Forall₂ L.token p.2.2 q.2.2) (closing? l) (closing? m) := by
  have pads := h.content.takeWhile (L.kind_eq TokenKind.isPad)
  have body := h.content.dropWhile (L.kind_eq TokenKind.isPad)
  rw [closing?, closing?]
  generalize l.content.dropWhile (·.kind.isPad) = ts at body
  generalize m.content.dropWhile (·.kind.isPad) = us at body
  cases body with
  | nil => exact .none
  | cons head tail =>
    dsimp only
    rw [← L.kind head]
    split
    · exact .some ⟨pads, head, tail⟩
    · exact .none

lemma alike_behindFence {ts us : List Token} {ending ending' : Option Token}
    (h : List.Forall₂ L.token ts us) (ends : Option.Rel L.token ending ending') :
    List.Forall₂ (Alike L) (behindFence ts ending) (behindFence us ending') := by
  have body := h.dropWhile (L.kind_eq TokenKind.isPad)
  rw [behindFence, behindFence]
  generalize ts.dropWhile (·.kind.isPad) = rest at body
  generalize us.dropWhile (·.kind.isPad) = rest' at body
  cases body with
  | nil => exact .nil
  | cons head tail => exact .cons (.line ⟨head, tail, ends⟩) .nil

def OpenedAlike (L : Likeness) (o o' : Line × List Token) : Prop :=
  o.1.Alike L o'.1 ∧ List.Forall₂ L.token o.2 o'.2

lemma alike_ofLines {opened opened' : Option (Line × List Token)} {ls ms : List RawLine}
    (front : Option.Rel (OpenedAlike L) opened opened')
    (h : List.Forall₂ (RawLine.Alike L) ls ms) :
    List.Forall₂ (Alike L) (ofLines opened ls) (ofLines opened' ms) := by
  induction h generalizing opened opened' with
  | nil =>
    cases front with
    | some here => exact .cons (.block ⟨here.1, here.2, .none⟩) .nil
    | none => exact .nil
  | @cons l m ls ms line _ ih =>
    cases front with
    | none =>
      have found := line.significant?
      rw [ofLines, ofLines]
      generalize l.significant? = a at found
      generalize m.significant? = b at found
      cases found with
      | none => exact ih .none
      | some here =>
        dsimp only
        rw [← here.kind]
        split
        · exact ih (.some ⟨here, .nil⟩)
        · exact .cons (.line here) (ih .none)
    | some open' =>
      have closing := alike_closing? line
      rw [ofLines, ofLines]
      generalize closing? l = a at closing
      generalize closing? m = b at closing
      cases closing with
      | none => exact ih (.some ⟨open'.1, List.rel_append open'.2 line.tokens⟩)
      | some here =>
        obtain ⟨indent, fence, more⟩ := here
        refine .cons (.block ⟨open'.1, open'.2, .some ⟨indent, fence⟩⟩) ?_
        exact List.rel_append (alike_behindFence more line.ending) (ih .none)

structure Reads {α β : Type} (L : Likeness) (R : α → β → Prop) (p : α × List Item)
    (q : β × List Item) : Prop where
  value : R p.1 q.1
  rest : List.Forall₂ (Alike L) p.2 q.2

lemma alike_takeLines (wanted : TokenKind → Bool) (h : List.Forall₂ (Alike L) items items') :
    Reads L (List.Forall₂ (Line.Alike L)) (takeLines wanted items) (takeLines wanted items') := by
  induction h with
  | nil => exact ⟨.nil, .nil⟩
  | cons first rest ih =>
    cases first with
    | block b => exact ⟨.nil, .cons (.block b) rest⟩
    | line l =>
      rw [takeLines, takeLines, ← l.kind]
      split
      · exact ⟨.cons l ih.value, ih.rest⟩
      · exact ⟨.nil, .cons (.line l) rest⟩

end Item

end FeatureFile
