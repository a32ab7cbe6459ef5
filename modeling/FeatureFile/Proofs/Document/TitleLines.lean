import FeatureFile.Proofs.Document.Placed
import FeatureFile.Proofs.FreeText.Trim

namespace FeatureFile

open Text (SourceLine byteLength isBreak)
open Lexeme (ofContent ofEnding plainLine keywordLine)

structure Passage.EndsLine (text : List Char) (m : Mark) (q : Passage) : Prop where
  start : q.start = m.offset
  lies : ∃ back, text = q.before ++ (q.text ++ back) ∧ ∀ c ∈ back.head?, isBreak c
  inline : ∀ c ∈ q.text, isBreak c = false

lemma Lexeme.keywordLine_of_plainLine {text : List Char} {x : Lexeme} {below : List Lexeme}
    (h : plainLine text = x :: below) (keyword : x.kind.isKeyword) :
    ∃ k, Keyword.at? text = some k ∧ x = ⟨k.kind, text.take k.length, none⟩ ∧
      keywordLine k text = x :: below := by
  unfold plainLine at h
  split at h
  case h_1 => cases h
  case h_5 =>
    split at h
    case h_1 =>
      obtain ⟨rfl, -⟩ := List.cons.inj h
      cases keyword
    case h_2 =>
      split at h
      case h_1 k found =>
        obtain ⟨rfl, -⟩ := List.cons.inj h
        exact ⟨k, found, rfl, h⟩
      case h_2 =>
        have mem : x.kind ∈ kinds (cut freeText none 0 text) := by
          rw [h]
          exact List.mem_cons_self
        rw [isKeyword_of_isFree (isFree_of_mem_cut x.kind mem)] at keyword
        cases keyword
  all_goals
    obtain ⟨rfl, -⟩ := List.cons.inj h
    cases keyword

inductive Line.TitleForm (l : Line) (text : List Char) : Prop
  | header {colon : Token} {rest : List Token} {name : List Char} : l.kind.isHeader →
      text = ':' :: name → l.tail = colon :: rest → colon.kind = .colon →
      Token.IsFreeText rest name → TitleForm l text
  | remarkedStep {comment : Token} : l.kind.isStep → text.head? = some '#' → l.tail = [comment] →
      comment.kind = .comment → TitleForm l text
  | step : l.kind.isStep → text.head? ≠ some '#' → Token.IsFreeText l.tail text → TitleForm l text

namespace Line

variable {text before : List Char} {m : Mark} {s : SourceLine} {rest : List SourceLine} {l : Line}

lemma titleForm_place {k : Keyword.Match} {x : Lexeme} {behind : List Lexeme} {line : List Char}
    (found : Keyword.at? line = some k) (cut : keywordLine k line = x :: behind) (head : l.kind = k.kind)
    (tail : l.tail = Token.place m behind) : l.TitleForm (line.drop k.length) := by
  have keyword := Keyword.isKeyword_of_at? found
  obtain ⟨-, cut⟩ := List.cons.inj cut
  cases header : k.kind.isHeader with
  | true =>
    obtain ⟨name, whole⟩ := Keyword.colon_of_at? found header
    rw [whole] at cut ⊢
    simp only [header, if_true] at cut
    rw [← cut] at tail
    exact .header (head ▸ header) rfl tail rfl (Token.isFreeText_place _ _ _)
  | false =>
    have step : l.kind.isStep := by simpa [head, TokenKind.isKeyword, header] using keyword
    cases whole : line.drop k.length with
    | nil =>
      rw [whole] at cut
      rw [← cut] at tail
      exact .step step (by simp) (tail ▸ Token.isFreeText_place m none [])
    | cons c after =>
      rw [whole] at cut
      simp only [header, Bool.false_eq_true, if_false] at cut
      split at cut
      case isTrue comment =>
        rw [← cut] at tail
        exact .remarkedStep step (by rw [comment]; rfl) tail rfl
      case isFalse other =>
        rw [← cut] at tail
        exact .step step (by simpa using other) (tail ▸ Token.isFreeText_place _ _ _)

lemma exists_endsLine (there : Passage.GoesOn text m before none (s :: rest))
    (here : (RawLine.read m none s.content s.ending).significant? = some l)
    (keyword : l.kind.isKeyword) :
    ∃ q : Passage, q.EndsLine text l.head.stop ∧ q.tokens text = l.tail ∧ l.TitleForm q.text := by
  have word := Lexeme.isFree_of_isKeyword keyword
  have fence : l.kind ≠ .fence := by
    intro fence
    rw [fence] at keyword
    cases keyword
  obtain ⟨-, first, tokens⟩ := place_of_significant? here word fence
  have whole := Lexeme.flatMap_text_plainLine (s.content.dropWhile Text.isPad)
  have line := there.line
  rw [Lexeme.ofContent.eq_def] at line
  cases lexemes : plainLine (s.content.dropWhile Text.isPad) with
  | nil =>
    rw [lexemes] at tokens
    cases tokens
  | cons x behind =>
    simp only [lexemes] at tokens line whole
    obtain ⟨head, tail⟩ := List.cons.inj tokens
    have kind : l.kind = x.kind := by rw [Line.kind, head]
    obtain ⟨k, found, same, cut⟩ := Lexeme.keywordLine_of_plainLine lexemes (kind ▸ keyword)
    let pads := (s.content.takeWhile Text.isPad).map Lexeme.pad
    have read : Passage.IsReadAt text ⟨before, s.text⟩ m ((pads ++ [x]) ++ (behind ++ ofEnding s.ending)) := by
      simpa [pads] using line
    have behindText : behind.flatMap Lexeme.text = (s.content.dropWhile Text.isPad).drop k.length := by
      rw [List.flatMap_cons, same] at whole
      exact List.append_cancel_left (whole.trans (List.take_append_drop k.length _).symm)
    have stop : l.head.stop = Token.placeEnd m (pads ++ [x]) := by
      rw [Token.placeEnd_append, ← first, head]
      rfl
    have place := read.behind.front
    refine ⟨⟨before ++ (pads ++ [x]).flatMap Lexeme.text, behind.flatMap Lexeme.text⟩, ⟨?_, ?_, ?_⟩, ?_, ?_⟩
    · rw [stop]
      exact place.start.symm
    · refine ⟨s.ending ++ rest.flatMap SourceLine.text, ?_, there.isBreak_behind⟩
      have content : (pads ++ [x]).flatMap Lexeme.text ++ behind.flatMap Lexeme.text = s.content := by
        rw [← List.flatMap_append, List.append_assoc, List.flatMap_append, Lexeme.flatMap_text_pads,
          List.singleton_append, whole, List.takeWhile_append_dropWhile]
      rw [List.append_assoc before, ← List.append_assoc _ (behind.flatMap Lexeme.text), content]
      simpa [SourceLine.text] using there.whole
    · intro c hc
      rw [behindText] at hc
      exact there.inline c ((List.dropWhile_sublist _).subset (List.mem_of_mem_drop hc))
    · rw [place.place_eq.1, ← stop, tail, head]
      rfl
    · rw [behindText]
      exact titleForm_place found cut (kind.trans (by rw [same])) tail

end Line

end FeatureFile
