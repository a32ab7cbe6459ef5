import FeatureFile.Proofs.Document.Reread
import FeatureFile.Proofs.Document.SourceLines

namespace FeatureFile

open Text (SourceLine byteLength isBreak)
open Lexeme (ofContent ofEnding)

namespace Text

lemma takeWhile_append_of_stop {p : Char → Bool} {front back : List Char} (all : ∀ c ∈ front, p c)
    (stop : ∀ c ∈ back.head?, p c = false) : (front ++ back).takeWhile p = front := by
  rw [List.takeWhile_append_of_pos all]
  cases back with
  | nil => exact List.append_nil _
  | cons c back => rw [List.takeWhile_cons_of_neg (by simp [stop c rfl]), List.append_nil]

end Text

lemma Lexeme.head?_of_plainLine {text : List Char} {x : Lexeme} {below : List Lexeme}
    (h : plainLine text = x :: below) :
    (x.kind = .pipe → text.head? = some '|') ∧ (x.kind = .atSign → text.head? = some '@') ∧
      (x.kind = .comment → text.head? = some '#') := by
  have free {k : TokenKind} (free : k.isFree) : k ≠ .pipe ∧ k ≠ .atSign ∧ k ≠ .comment := by
    refine ⟨?_, ?_, ?_⟩ <;> (rintro rfl; cases free)
  unfold plainLine at h
  split at h
  case h_1 => cases h
  case h_2 =>
    obtain ⟨rfl, -⟩ := List.cons.inj h
    exact ⟨nofun, nofun, fun _ => rfl⟩
  case h_3 =>
    obtain ⟨rfl, -⟩ := List.cons.inj h
    exact ⟨fun _ => rfl, nofun, nofun⟩
  case h_4 =>
    obtain ⟨rfl, -⟩ := List.cons.inj h
    exact ⟨nofun, fun _ => rfl, nofun⟩
  case h_5 =>
    split at h
    case h_1 =>
      obtain ⟨rfl, -⟩ := List.cons.inj h
      exact ⟨nofun, nofun, nofun⟩
    case h_2 =>
      split at h
      case h_1 m found =>
        obtain ⟨rfl, -⟩ := List.cons.inj h
        have keyword := Keyword.isKeyword_of_at? found
        refine ⟨?_, ?_, ?_⟩ <;>
          (intro kind; rw [show m.kind = _ from kind] at keyword; cases keyword)
      case h_2 =>
        have mem : x.kind ∈ kinds (cut freeText none 0 text) := by
          rw [h]
          exact List.mem_cons_self
        obtain ⟨pipe, sign, comment⟩ := free (isFree_of_mem_cut x.kind mem)
        exact ⟨fun kind => absurd kind pipe, fun kind => absurd kind sign,
          fun kind => absurd kind comment⟩

lemma Token.start_of_place {m : Mark} {ls : List Lexeme} {t : Token} {ts : List Token}
    (h : place m ls = t :: ts) : t.start = m := by
  cases ls with
  | nil => cases h
  | cons l ls => exact (congrArg Token.start (List.cons.inj h).1).symm

namespace RawLine

variable (m : Mark)

lemma shape_read (within : Option Fence) (content ending : List Char) :
    Lexeme.Shape within.isSome (read m within content ending).shape :=
  (Scanned.shape_of_kinds (Token.map_kind_place m (ofContent within content)) _).1

lemma body_read (content ending : List Char) :
    (read m none content ending).body =
      Token.place (Token.placeEnd m ((content.takeWhile Text.isPad).map Lexeme.pad))
        (Lexeme.plainLine (content.dropWhile Text.isPad)) := by
  have padded : ∀ k ∈ Lexeme.kinds ((content.takeWhile Text.isPad).map Lexeme.pad), k.isPad := by
    simpa [Lexeme.kinds, Lexeme.pad] using fun c _ => Lexeme.isPad_padKind c
  have plain : Lexeme.Shape false (Lexeme.kinds (Lexeme.plainLine (content.dropWhile Text.isPad))) :=
    (Lexeme.plainShape_plainLine (Lexeme.unpadded_dropWhile content)).1
  exact Token.body_place m padded plain.unpadded _

end RawLine

namespace Line

structure IsPlaced (text : List Char) (l : Line) (content : List Char) : Prop where
  tokens : l.head :: l.tail = Token.place l.start (Lexeme.plainLine content)
  lies : ∃ front back, text = front ++ (content ++ back) ∧ l.start.offset = byteLength front ∧
    ∀ c ∈ back.head?, isBreak c
  inline : ∀ c ∈ content, isBreak c = false

lemma place_of_significant? {m : Mark} {within : Option Fence} {content ending : List Char} {l : Line}
    (here : (RawLine.read m within content ending).significant? = some l)
    (word : l.kind.isFree = false) (fence : l.kind ≠ .fence) :
    within = none ∧ l.start = Token.placeEnd m ((content.takeWhile Text.isPad).map Lexeme.pad) ∧
      l.head :: l.tail = Token.place l.start (Lexeme.plainLine (content.dropWhile Text.isPad)) := by
  have shape := RawLine.shape_read m within content ending
  cases within with
  | some f =>
    rcases RawLine.kind_of_significant? shape here with other | other
    · rw [other] at word
      cases word
    · exact absurd other fence
  | none =>
    have body := (RawLine.body_read m content ending).symm.trans
      (RawLine.body_of_significant? shape here)
    have first := Token.start_of_place body
    exact ⟨rfl, first, (show l.start = _ from first) ▸ body.symm⟩

lemma isPlaced_of_goesOn {text before : List Char} {m : Mark} {s : SourceLine} {rest : List SourceLine}
    {l : Line} (there : Passage.GoesOn text m before none (s :: rest))
    (here : (RawLine.read m none s.content s.ending).significant? = some l)
    (word : l.kind.isFree = false) (fence : l.kind ≠ .fence) :
    l.IsPlaced text (s.content.dropWhile Text.isPad) := by
  obtain ⟨-, first, tokens⟩ := place_of_significant? here word fence
  refine ⟨tokens, ⟨before ++ s.content.takeWhile Text.isPad, s.ending ++ rest.flatMap SourceLine.text,
    ?_, ?_, there.isBreak_behind⟩, fun c hc => ?_⟩
  · rw [List.append_assoc, ← List.append_assoc (s.content.takeWhile Text.isPad),
      List.takeWhile_append_dropWhile]
    simpa [SourceLine.text] using there.whole
  · rw [first, Token.offset_placeEnd, Lexeme.flatMap_text_pads, there.read.start,
      Text.byteLength_append, Passage.start]
  · exact there.inline c ((List.dropWhile_sublist _).subset hc)

end Line

namespace Line.IsPlaced

variable {text content : List Char} {l : Line}

lemma plainLine_eq_cons (h : l.IsPlaced text content) :
    ∃ x below, Lexeme.plainLine content = x :: below ∧ x.kind = l.kind := by
  have tokens := h.tokens
  cases lexemes : Lexeme.plainLine content with
  | nil =>
    rw [lexemes] at tokens
    cases tokens
  | cons x below =>
    rw [lexemes] at tokens
    exact ⟨x, below, rfl, (congrArg Token.kind (List.cons.inj tokens).1).symm⟩

lemma bar (h : l.IsPlaced text content) (kind : l.kind = .pipe) : ∃ rest, content = '|' :: rest := by
  obtain ⟨x, below, lexemes, same⟩ := h.plainLine_eq_cons
  exact List.head?_eq_some_iff.mp ((Lexeme.head?_of_plainLine lexemes).1 (same.trans kind))

lemma sign (h : l.IsPlaced text content) (kind : l.kind = .atSign) :
    ∃ rest, content = '@' :: rest := by
  obtain ⟨x, below, lexemes, same⟩ := h.plainLine_eq_cons
  exact List.head?_eq_some_iff.mp ((Lexeme.head?_of_plainLine lexemes).2.1 (same.trans kind))

lemma dropBytes? (h : l.IsPlaced text content) :
    ∃ back, Text.dropBytes? l.start.offset text = some (content ++ back) ∧
      ∀ c ∈ back.head?, isBreak c := by
  obtain ⟨front, back, rfl, start, stop⟩ := h.lies
  exact ⟨back, by rw [start, Text.dropBytes?_append], stop⟩

end Line.IsPlaced

namespace Item

lemma split_ofLines (opened : Option (Line × List Token)) {ls : List RawLine}
    (scanned : Scanned opened.isSome ls) {l : Line} {front below : List Item}
    (whole : ofLines opened ls = front ++ line l :: below) (word : l.kind.isFree = false) :
    ∃ above raw rest, ls = above ++ raw :: rest ∧ raw.significant? = some l ∧ l.kind ≠ .fence ∧
      ofLines none rest = below := by
  have deeper {raw : RawLine} {rest : List RawLine}
      (h : ∃ above raw' rest', rest = above ++ raw' :: rest' ∧ raw'.significant? = some l ∧
        l.kind ≠ .fence ∧ ofLines none rest' = below) :
      ∃ above raw' rest', raw :: rest = above ++ raw' :: rest' ∧ raw'.significant? = some l ∧
        l.kind ≠ .fence ∧ ofLines none rest' = below := by
    obtain ⟨above, raw', rest', rfl, here⟩ := h
    exact ⟨raw :: above, raw', rest', rfl, here⟩
  fun_induction ofLines opened ls generalizing front with
  | case1 => cases front <;> cases whole
  | case2 opening content => cases front <;> simp at whole
  | case3 raw rest blank ih =>
    exact deeper (ih (scanned.rest_of_stays (RawLine.turns_of_significant?_none blank)) whole)
  | case4 raw rest found here opens ih =>
    exact deeper (ih (scanned.rest_of_turns ((scanned.turns_iff here).mpr opens)) whole)
  | case5 raw rest found here other ih =>
    cases front with
    | nil =>
      obtain ⟨same, rfl⟩ := List.cons.inj whole
      obtain rfl := line.inj same
      exact ⟨[], raw, rest, rfl, here, other, rfl⟩
    | cons f front =>
      exact deeper (ih (scanned.rest_of_stays (scanned.stays here other)) (List.cons.inj whole).2)
  | case6 opening content raw rest stays ih =>
    exact deeper (ih (scanned.rest_of_stays (RawLine.turns_of_closing?_none stays)) whole)
  | case7 opening content raw rest indent fence more here ih =>
    cases front with
    | nil => cases (List.cons.inj whole).1
    | cons b front =>
      have whole := (List.cons.inj whole).2
      have next := scanned.rest_of_turns (RawLine.turns_of_closing? here)
      rw [behindFence] at whole
      split at whole
      case h_1 => exact deeper (ih next whole)
      case h_2 t tail kept =>
        cases front with
        | nil =>
          -- What stands behind the closing fence is free text.
          obtain rfl := line.inj (List.cons.inj whole).1
          have sub := (List.dropWhile_suffix (fun t : Token => t.kind.isPad) (l := more)).subset
          have free := isFree_of_closing? scanned.shape here t (sub (kept ▸ List.mem_cons_self))
          simp [Line.kind, free] at word
        | cons f front => exact deeper (ih next (List.cons.inj whole).2)

end Item

namespace Parsed

variable {options : Options} {text : List Char} {l : Line}

lemma exists_goesOn {front below : List Item}
    (whole : (parse options text).feature.items = front ++ .line l :: below)
    (word : l.kind.isFree = false) :
    ∃ m before s rest, Passage.GoesOn text m before none (s :: rest) ∧
      (RawLine.read m none s.content s.ending).significant? = some l ∧ l.kind ≠ .fence ∧
      below = Item.ofLines none (RawLine.ofLines (RawLine.placeBehind m none s)
        (Fence.behind none (s.content.dropWhile Text.isPad)) rest) := by
  have items := Feature.items_ofLines (Stream.ofText text).eof
    (RawLine.ofTokens (Stream.ofText text).content)
  have lines := items.symm.trans whole
  obtain ⟨skipped, suffix⟩ := Opening.skipJunk_suffix (RawLine.ofTokens (Stream.ofText text).content)
  rcases Opening.scanned_skipJunk (scanned_ofText text) none rfl with empty | ⟨scanned, -⟩
  · rw [empty, Item.ofLines] at lines
    cases front <;> cases lines
  · obtain ⟨above, raw, rest, kept, here, fence, rfl⟩ := Item.split_ofLines none scanned lines word
    rw [kept, ← List.append_assoc, Stream.content_ofText] at suffix
    obtain ⟨m, before, within, s, rest, there, rfl, rfl⟩ :=
      (Passage.GoesOn.origin text).split suffix.symm
    obtain ⟨rfl, -⟩ := Line.place_of_significant? here word fence
    exact ⟨m, before, s, rest, there, here, fence, rfl⟩

lemma exists_isPlaced (mem : Item.line l ∈ (parse options text).feature.items)
    (word : l.kind.isFree = false) : ∃ content, l.IsPlaced text content := by
  obtain ⟨front, below, whole⟩ := List.append_of_mem mem
  obtain ⟨m, before, s, rest, there, here, fence, -⟩ := exists_goesOn whole word
  exact ⟨_, Line.isPlaced_of_goesOn there here word fence⟩

end Parsed

end FeatureFile
