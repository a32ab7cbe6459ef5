import FeatureFile.Proofs.Document.OpenFence
import FeatureFile.Proofs.Shift.Items
import FeatureFile.Proofs.Text.Position

namespace FeatureFile

open Text (EndsLine IsParted SourceLine)

def Fence.behindAll (within : Option Fence) (ls : List SourceLine) : Option Fence :=
  ls.foldl (fun within l => behind within (l.content.dropWhile Text.isPad)) within

lemma Lexeme.ofLines_append (within : Option Fence) (ls more : List SourceLine) :
    ofLines within (ls ++ more) =
      ofLines within ls ++ ofLines (Fence.behindAll within ls) more := by
  induction ls generalizing within with
  | nil => rfl
  | cons l ls ih =>
    simp only [List.cons_append, ofLines, ih, List.append_assoc]
    rfl

lemma Lexeme.kinds_ofEnding (ending : List Char) : ∀ k ∈ kinds (ofEnding ending), k = .eol := by
  cases ending <;> simp [ofEnding, kinds]

lemma Token.kind_of_mem_place {m : Mark} {ls : List Lexeme} {p : TokenKind → Prop}
    (all : ∀ k ∈ Lexeme.kinds ls, p k) : ∀ t ∈ place m ls, p t.kind := by
  intro t ht
  have mem : t.kind ∈ (place m ls).map kind := List.mem_map_of_mem ht
  rw [map_kind_place] at mem
  exact all _ mem

lemma isSome_fenceBehind_line (m : Mark) {found : Option Token} {within : Option Fence}
    (agrees : found.isSome = within.isSome) (l : SourceLine) :
    (fenceBehind found (Token.place m (Lexeme.ofContent within l.content ++
      Lexeme.ofEnding l.ending))).isSome =
      (Fence.behind within (l.content.dropWhile Text.isPad)).isSome := by
  have kinds := Token.map_kind_place m (Lexeme.ofContent within l.content)
  have unfenced (m' : Mark) : ∀ t ∈ Token.place m' (Lexeme.ofEnding l.ending), t.kind ≠ .fence := by
    intro t ht
    rw [Token.kind_of_mem_place (Lexeme.kinds_ofEnding l.ending) t ht]
    decide
  obtain ⟨shape, turns⟩ := Scanned.shape_of_kinds kinds none
  have behind := RawLine.fenceBehind_tokens
    ⟨Scanned.inline_of_kinds kinds, by simp⟩ shape found
  rw [RawLine.tokens, Option.toList_none, List.append_nil] at behind
  -- Of the lexemes of a line only a fence in front counts, as it does for the scan.
  rw [Token.place_append, fenceBehind_append, fenceBehind_of_unfenced (unfenced _), behind, turns]
  split
  case isTrue here =>
    obtain ⟨t, rest, body, -⟩ := RawLine.body_of_turns here
    cases found <;> simp [← agrees, body]
  case isFalse => exact agrees

lemma isSome_fenceBehind_place (m : Mark) {found : Option Token} {within : Option Fence}
    (agrees : found.isSome = within.isSome) (ls : List SourceLine) :
    (fenceBehind found (Token.place m (Lexeme.ofLines within ls))).isSome =
      (Fence.behindAll within ls).isSome := by
  induction ls generalizing m found within with
  | nil => exact agrees
  | cons l ls ih =>
    rw [Lexeme.ofLines, Token.place_append, fenceBehind_append]
    exact ih _ (isSome_fenceBehind_line m agrees l)

lemma RawLine.ofTokens_place_append (m : Mark) (within : Option Fence) {ls : List SourceLine}
    (ended : ∀ l ∈ ls, l.ending ≠ []) (more : List Token) :
    ofTokens (Token.place m (Lexeme.ofLines within ls) ++ more) =
      ofTokens (Token.place m (Lexeme.ofLines within ls)) ++ ofTokens more := by
  induction ls generalizing m within with
  | nil => rfl
  | cons l ls ih =>
    obtain ⟨ending, others⟩ := List.forall_mem_cons.mp ended
    obtain ⟨e, es, he⟩ := List.exists_cons_of_ne_nil ending
    simp only [Lexeme.ofLines, he, Lexeme.ofEnding, List.append_assoc, List.cons_append,
      List.nil_append, Token.place_append, Token.place]
    rw [ofTokens_append_eol (Scanned.inline_place _) rfl,
      ofTokens_append_eol (Scanned.inline_place _) rfl, ih _ _ others, List.cons_append]

namespace Token

lemma line_placeEnd {ls : List Lexeme} (inline : ∀ k ∈ Lexeme.kinds ls, k ≠ .eol) (m : Mark) :
    (placeEnd m ls).position.line = m.position.line := by
  induction ls generalizing m with
  | nil => rfl
  | cons l ls ih =>
    obtain ⟨first, others⟩ := List.forall_mem_cons.mp inline
    rw [placeEnd, ih others, Mark.advance, if_neg first]
    rfl

lemma position_placeEnd (m : Mark) (front : m.position.column = 0) (within : Option Fence)
    {ls : List SourceLine} (ended : ∀ l ∈ ls, l.ending ≠ []) :
    (placeEnd m (Lexeme.ofLines within ls)).position =
      ⟨Position.add m.position.line ls.length, 0⟩ := by
  induction ls generalizing m within with
  | nil =>
    rw [List.length_nil, Position.add_zero]
    exact congrArg (Position.mk m.position.line) front
  | cons l ls ih =>
    obtain ⟨ending, others⟩ := List.forall_mem_cons.mp ended
    obtain ⟨e, es, he⟩ := List.exists_cons_of_ne_nil ending
    have line : (placeEnd m (Lexeme.ofContent within l.content)).position.line = m.position.line :=
      line_placeEnd (fun k hk => (Lexeme.inline_of_mem_ofContent k hk).1) m
    have stop : (placeEnd m (Lexeme.ofContent within l.content ++ Lexeme.ofEnding l.ending)).position =
        ⟨Position.add m.position.line 1, 0⟩ := by
      rw [he, placeEnd_append, ← line]
      rfl
    rw [Lexeme.ofLines, placeEnd_append, ih _ (congrArg Position.column stop) _ others, stop,
      List.length_cons, Position.add_add, Nat.add_comm]

end Token

namespace Stream

lemma openFence_eq_none {text : List Char}
    (closed : ∀ r ∈ (ofText text).reports, r.fault ≠ .openDocString) :
    openFence (ofText text).content = none := by
  rw [← Option.not_isSome_iff_eq_none]
  intro some
  obtain ⟨t, here⟩ := Option.isSome_iff_exists.mp some
  have report : (⟨.openDocString, t.start, t.stop.offset⟩ : LexicalReport) ∈ (ofText text).reports :=
    List.mem_append_right _ (by simp [openDocString_ofText, here])
  exact closed _ report rfl

variable {text : List Char}

def shiftBehind (text : List Char) : Shift :=
  ⟨Text.byteLength text, Text.breakCount text⟩

lemma stop_ofText (ended : EndsLine text) :
    (ofText text).stop = (⟨0, .start⟩ : Mark).shift (shiftBehind text) := by
  have offset := offset_stop_ofText text
  have position := Token.position_placeEnd (origin text) rfl none
    (Text.ending_ne_nil ended.stripMark)
  rw [← Lexeme.ofText, ← stop_eq, Text.length_lines_stripMark ended, ← Text.breakCount_of_endsLine ended] at position
  have whole (m : Mark) : m = ⟨m.offset, m.position⟩ := rfl
  rw [whole (ofText text).stop, offset]
  exact Mark.mk.injEq .. ▸ ⟨(Nat.zero_add _).symm, position⟩

lemma origin_append (some : text ≠ []) (more : List Char) : origin (text ++ more) = origin text := by
  have offset : (origin (text ++ more)).offset = (origin text).offset := by
    rw [offset_origin, offset_origin, List.head?_append_of_ne_nil _ some]
  exact congrArg (Mark.mk · .start) offset

lemma origin_of_unmarked (unmarked : text.head? ≠ some Text.byteOrderMark) :
    origin text = ⟨0, .start⟩ := by
  have offset := offset_origin text
  rw [if_neg unmarked] at offset
  exact congrArg (Mark.mk · .start) offset

lemma behindAll_eq_none (closed : openFence (ofText text).content = none) :
    Fence.behindAll none (Text.lines (Text.stripMark text)) = none := by
  have agrees : (openFence (ofText text).content).isSome =
      (Fence.behindAll none (Text.lines (Text.stripMark text))).isSome := by
    rw [content_ofText]
    exact isSome_fenceBehind_place (origin text) rfl _
  rw [closed] at agrees
  exact Option.not_isSome_iff_eq_none.mp (by simp [← agrees])

lemma lexemes_append {more : List Char} (some : text ≠ []) (parted : IsParted text more)
    (closed : openFence (ofText text).content = none) :
    Lexeme.ofText (Text.stripMark (text ++ more)) =
      Lexeme.ofText (Text.stripMark text) ++ Lexeme.ofText more := by
  rw [Lexeme.ofText, Text.stripMark_append some, Text.lines_append parted.stripMark,
    Lexeme.ofLines_append, behindAll_eq_none closed]
  rfl

variable {more : List Char}

lemma ofText_append (some : text ≠ []) (parted : IsParted text more)
    (closed : openFence (ofText text).content = none)
    (unmarked : more.head? ≠ Option.some Text.byteOrderMark) :
    (ofText (text ++ more)).content =
        (ofText text).content ++ (ofText more).content.map (Token.shift (shiftBehind text)) ∧
      (ofText (text ++ more)).stop = (ofText more).stop.shift (shiftBehind text) := by
  have plain := Text.stripMark_of_unmarked unmarked
  have lexemes := lexemes_append some parted closed
  have stop : Token.placeEnd (origin text) (Lexeme.ofText (Text.stripMark text)) =
      (origin more).shift (shiftBehind text) := by
    rw [origin_of_unmarked unmarked, ← stop_eq]
    exact stop_ofText parted.ended
  constructor
  · rw [content_ofText, origin_append some, lexemes, Token.place_append, stop, Token.place_shift]
    simp only [content_ofText, plain]
  · simp only [stop_eq, origin_append some, lexemes, Token.placeEnd_append, stop,
      Token.placeEnd_shift, plain]

lemma ofTokens_append (ended : EndsLine text) (tokens : List Token) :
    RawLine.ofTokens ((ofText text).content ++ tokens) =
      RawLine.ofTokens (ofText text).content ++ RawLine.ofTokens tokens := by
  rw [content_ofText]
  exact RawLine.ofTokens_place_append (origin text) none (Text.ending_ne_nil ended.stripMark) tokens

end Stream

end FeatureFile
