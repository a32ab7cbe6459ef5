import FeatureFile.Proofs.Document.Placed

namespace FeatureFile

open Text (SourceLine isBreak)
open Lexeme (ofContent ofEnding)
open RawLine (placeBehind)

lemma RawLine.find?_tokens {l : RawLine} (closed : l.IsClosed) :
    l.tokens.find? (!·.kind.isTrivia) = l.significant?.map Line.head := by
  have ending : l.ending.toList.find? (!·.kind.isTrivia) = none := by
    rw [List.find?_eq_none]
    intro t ht
    simp [closed.ending t (Option.mem_toList.mp ht), TokenKind.isTrivia]
  have content := List.find?_eq_head?_dropWhile_not (fun t : Token => !t.kind.isTrivia) l.content
  simp only [Bool.not_not] at content
  rw [tokens, List.find?_append, ending, Option.or_none, content, significant?]
  split
  next none => rw [none]; rfl
  next some => rw [some]; rfl

namespace Passage

def isProse (text : List Char) (p : Passage) : Bool :=
  ((p.tokens text).find? (!·.kind.isTrivia)).all (·.kind.isProse)

def shown (p : Passage) : List Char :=
  if p.unpadded.text.head?.all fun c => isBreak c || c = '#' then [] else p.unpadded.text

namespace GoesOn

variable {text before : List Char} {m : Mark} {within : Option Fence} {l : SourceLine}
  {ls rest : List SourceLine} {found : Line}

lemma tokens_line (h : GoesOn text m before within (l :: rest)) :
    tokens ⟨before, l.text⟩ text = (RawLine.read m within l.content l.ending).tokens := by
  rw [h.line.place_eq.1, Token.place_append, RawLine.tokens, RawLine.read]
  cases l.ending <;> rfl

lemma isClosed_line (h : GoesOn text m before within (l :: rest)) :
    (RawLine.read m within l.content l.ending).IsClosed :=
  RawLine.isClosed_ofTokens _ _ (RawLine.ofLines_cons h.cut m within ▸ List.mem_cons_self)

lemma isProse_line (h : GoesOn text m before within (l :: rest)) :
    isProse text ⟨before, l.text⟩ =
      (RawLine.read m within l.content l.ending).significant?.all (·.kind.isProse) := by
  rw [isProse, h.tokens_line, RawLine.find?_tokens h.isClosed_line, Option.all_map]
  rfl

lemma unpadded_line (h : GoesOn text m before within (l :: rest)) :
    (unpadded ⟨before, l.text⟩).text = l.content.dropWhile Text.isPad ++ l.ending := by
  have ending : l.ending.dropWhile Text.isPad = l.ending := by
    cases whole : l.ending with
    | nil => rfl
    | cons c cs =>
      have stop := h.ends c (whole ▸ List.mem_cons_self)
      refine List.dropWhile_cons_of_neg fun pad => ?_
      rw [Text.isBreak_of_isPad pad] at stop
      cases stop
  rw [unpadded, SourceLine.text, List.dropWhile_append, ending]
  split
  next none => rw [List.isEmpty_iff.mp none]; rfl
  next => rfl

lemma shown_of_blank (h : GoesOn text m before none (l :: rest))
    (blank : (RawLine.read m none l.content l.ending).significant? = none) :
    shown ⟨before, l.text⟩ = [] := by
  rw [shown, h.unpadded_line]
  refine if_pos ?_
  cases whole : l.content.dropWhile Text.isPad with
  | nil =>
    cases ending : l.ending with
    | nil => rfl
    | cons c cs => simp [h.ends c (ending ▸ List.mem_cons_self)]
  | cons c cs =>
    have text := Lexeme.flatMap_text_plainLine (c :: cs)
    cases lexemes : Lexeme.plainLine (c :: cs) with
    | nil => simp [lexemes] at text
    | cons x below =>
      -- All on the line is trivia, and but for padding only a comment is.
      have body := RawLine.body_read m l.content l.ending
      have shape := RawLine.shape_read m none l.content l.ending
      have dropped := RawLine.dropWhile_body (RawLine.read m none l.content l.ending)
      rw [RawLine.shape, body, whole, lexemes] at shape
      rw [RawLine.significant?] at blank
      split at blank
      case h_2 => cases blank
      case h_1 none =>
        rw [none, body, whole, lexemes, List.dropWhile_eq_nil_iff] at dropped
        have trivia := dropped _ List.mem_cons_self
        have comment := (Lexeme.PlainShape.comment_of_isTrivia shape trivia).1
        obtain rfl := Option.some.inj ((Lexeme.head?_of_plainLine lexemes).2.2 comment)
        rfl

lemma shown_of_significant? (h : GoesOn text m before none (l :: rest))
    (here : (RawLine.read m none l.content l.ending).significant? = some found) :
    shown ⟨before, l.text⟩ = found.tokens.flatMap Token.text := by
  have shape := RawLine.shape_read m none l.content l.ending
  have body := (RawLine.body_read m l.content l.ending).symm.trans
    (RawLine.body_of_significant? shape here)
  have ending : found.ending.toList.flatMap Token.text = l.ending := by
    rw [Line.ending_of_significant? here, RawLine.read]
    cases l.ending <;> simp [ofEnding, Token.place]
  have same : found.tokens.flatMap Token.text = l.content.dropWhile Text.isPad ++ l.ending := by
    rw [Line.tokens, List.flatMap_append, ending, ← body, Token.flatMap_text_place,
      Lexeme.flatMap_text_plainLine]
  rw [shown, h.unpadded_line, same]
  refine if_neg ?_
  cases whole : l.content.dropWhile Text.isPad with
  | nil =>
    rw [whole] at body
    cases body
  | cons c cs =>
    have inline := h.inline c ((List.dropWhile_sublist _).subset (whole ▸ List.mem_cons_self))
    have word : c ≠ '#' := by
      rintro rfl
      have trivia := Line.isTrivia_of_significant? here
      rw [whole] at body
      rw [Line.kind, ← (List.cons.inj body).1] at trivia
      cases trivia
    simp [inline, word]

lemma behind_eq_none (stays : (RawLine.read m none l.content l.ending).turns = false) :
    Fence.behind none (l.content.dropWhile Text.isPad) = none := by
  have isSome : _ = if (RawLine.read m none l.content l.ending).turns then _ else _ :=
    (Scanned.shape_of_kinds (Token.map_kind_place m (ofContent none l.content)) _).2
  rw [← Option.not_isSome_iff_eq_none, isSome, if_neg (by simp [stays])]
  simp

theorem flatMap_takeLines (h : GoesOn text m before none ls) :
    ((Item.takeLines TokenKind.isProse
        (Item.ofLines none (RawLine.ofLines m none ls))).1.flatMap Line.tokens).flatMap Token.text =
      ((wholeLines before ls).takeWhile (isProse text)).flatMap shown := by
  induction ls generalizing m before with
  | nil => rfl
  | cons l rest ih =>
    have prose := h.isProse_line
    have next := h.next
    rw [RawLine.ofLines_cons h.cut, Item.ofLines, wholeLines]
    cases here : (RawLine.read m none l.content l.ending).significant? with
    | none =>
      have behind := behind_eq_none (RawLine.turns_of_significant?_none here)
      rw [here] at prose
      rw [behind] at next ⊢
      rw [List.takeWhile_cons_of_pos prose, List.flatMap_cons, h.shown_of_blank here]
      exact ih next
    | some found =>
      have turns := RawLine.turns_of_significant? (RawLine.shape_read m none _ _) here
      have prose : isProse text ⟨before, l.text⟩ = found.kind.isProse := by
        rw [prose, here]
        rfl
      by_cases fence : found.kind = .fence
      · obtain ⟨b, items, block⟩ := Item.ofLines_some_eq_cons (found, [])
          (RawLine.ofLines (placeBehind m none l)
            (Fence.behind none (l.content.dropWhile Text.isPad)) rest)
        rw [List.takeWhile_cons_of_neg (by rw [prose, fence]; decide)]
        simp [fence, block, Item.takeLines]
      · have behind := behind_eq_none (Bool.eq_false_iff.mpr (turns ▸ fence))
        rw [behind] at next ⊢
        simp only [if_neg fence, Item.takeLines]
        split
        case isTrue goes =>
          rw [List.takeWhile_cons_of_pos (prose.trans goes), List.flatMap_cons, List.flatMap_cons,
            List.flatMap_append, ih next, h.shown_of_significant? here]
        case isFalse stops =>
          rw [List.takeWhile_cons_of_neg (prose ▸ stops)]
          rfl

end GoesOn

end Passage

end FeatureFile
