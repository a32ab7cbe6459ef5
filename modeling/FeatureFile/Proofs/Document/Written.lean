import FeatureFile.Proofs.Clean

namespace FeatureFile

open Text (IsLineEnd isBreak isPad)

namespace Lexeme

lemma isTrivia_pads (text : List Char) : ∀ l ∈ text.map pad, l.kind.isTrivia :=
  List.forall_mem_map.mpr fun c _ => TokenKind.isTrivia_of_isPad (isPad_padKind c)

lemma closed_pads (text : List Char) : ∀ l ∈ text.map pad, l.openQuote = none :=
  List.forall_mem_map.mpr fun _ _ => rfl

structure IsLine (sort : TokenKind → Bool) (content : List Char) : Prop where
  inline : ∀ c ∈ content, isBreak c = false
  first : ∃ l ∈ (ofContent none content).find? (!·.kind.isTrivia), sort l.kind
  closed : ∀ l ∈ ofContent none content, l.openQuote = none

instance (sort : TokenKind → Bool) (content : List Char) : Decidable (IsLine sort content) :=
  decidable_of_iff ((∀ c ∈ content, isBreak c = false) ∧
      (∃ l ∈ (ofContent none content).find? fun (l : Lexeme) => !l.kind.isTrivia, sort l.kind) ∧
      ∀ l ∈ ofContent none content, l.openQuote = none)
    ⟨fun h => .mk h.1 h.2.1 h.2.2, fun line => ⟨line.inline, line.first, line.closed⟩⟩

variable {sort : TokenKind → Bool} {content ending more : List Char}

namespace IsLine

lemma exists_first (line : IsLine sort content) :
    ∃ idle x below, ofContent none content = idle ++ x :: below ∧
      (∀ l ∈ idle, l.kind.isTrivia) ∧ x.kind.isTrivia = false ∧ sort x.kind := by
  obtain ⟨x, found, here⟩ := line.first
  obtain ⟨word, idle, below, whole, trivia⟩ := List.find?_eq_some_iff_append.mp found
  exact ⟨idle, x, below, whole, by simpa using trivia, by simpa using word, here⟩

lemma ne_nil (line : IsLine sort content) : content ≠ [] := by
  rintro rfl
  simpa [ofContent, plainLine] using line.first

lemma behind_eq_none (line : IsLine sort content) (plain : sort .fence = false) :
    Fence.behind none (content.dropWhile isPad) = none := by
  obtain ⟨idle, x, below, whole, trivia, word, here⟩ := line.exists_first
  obtain ⟨pads, body, kinds, padded, -, turns⟩ := shape_ofContent none content
  have found : (Lexeme.kinds (ofContent none content)).find? (!·.isTrivia) = some x.kind := by
    rw [whole, Lexeme.kinds, List.find?_map, List.find?_append, List.find?_eq_none.mpr, Option.none_or,
      List.find?_cons_of_pos (by simp [word])]
    · rfl
    · simpa using trivia
  rw [← Option.not_isSome_iff_eq_none, turns]
  split
  case isFalse => simp
  case isTrue fence =>
    obtain ⟨rest, rfl⟩ := List.head?_eq_some_iff.mp fence
    have front : pads.find? (!·.isTrivia) = none :=
      List.find?_eq_none.mpr fun k hk => by simp [TokenKind.isTrivia_of_isPad (padded k hk)]
    rw [kinds, List.find?_append, front, Option.none_or] at found
    have same : TokenKind.fence = x.kind := Option.some.inj found
    rw [← same, plain] at here
    cases here

end IsLine

lemma ofText_line (line : IsLine sort content) (plain : sort .fence = false)
    (stop : IsLineEnd ending more) :
    ofText (content ++ (ending ++ more)) =
      ofContent none content ++ ofEnding ending ++ ofText more := by
  rw [ofText, Text.lines_line line.inline stop (by simp [line.ne_nil]), ofLines,
    line.behind_eq_none plain, ofText]

lemma isClosed_line (line : IsLine sort content) (plain : sort .fence = false)
    (stop : IsLineEnd ending more) (below : ∀ l ∈ ofText more, l.IsClosed) :
    ∀ l ∈ ofText (content ++ (ending ++ more)), l.IsClosed := by
  rw [ofText_line line plain stop]
  refine List.forall_mem_append.mpr ⟨List.forall_mem_append.mpr
    ⟨fun l hl => .inr (line.closed l hl), ?_⟩, below⟩
  cases ending <;> simp [ofEnding, IsClosed]

end Lexeme

open Lexeme (IsLine ofContent ofEnding)

lemma Token.kind_pads (m : Mark) (text : List Char) :
    ∀ t ∈ place m (text.map Lexeme.pad), t.kind.isPad := by
  refine kind_of_mem_place (p := fun k => k.isPad) fun k hk => ?_
  simp only [Lexeme.kinds, List.mem_map] at hk
  obtain ⟨_, ⟨c, -, rfl⟩, rfl⟩ := hk
  exact Lexeme.isPad_padKind c

namespace RawLine

def read (m : Mark) (within : Option Fence) (content ending : List Char) : RawLine :=
  ⟨Token.place m (ofContent within content),
    (Token.place (Token.placeEnd m (ofContent within content)) (ofEnding ending)).head?⟩

lemma ofTokens_place_line (m : Mark) (within : Option Fence) {content ending : List Char}
    {below : List Lexeme} (some : ending = [] → content ≠ []) (last : ending = [] → below = []) :
    ofTokens (Token.place m (ofContent within content ++ ofEnding ending ++ below)) =
      read m within content ending ::
        ofTokens (Token.place (Token.placeEnd m (ofContent within content ++ ofEnding ending))
          below) := by
  cases ending with
  | cons c cs =>
    rw [List.append_assoc, Token.place_append, Token.placeEnd_append]
    exact ofTokens_append_eol (Scanned.inline_place m) rfl _
  | nil =>
    have one := Scanned.ofTokens_place_last m within (some rfl)
    rw [Lexeme.ofLines, Lexeme.ofLines, List.append_nil] at one
    rw [last rfl, List.append_nil, one]
    rfl

end RawLine

namespace Line

def read? (m : Mark) (content ending : List Char) : Option Line :=
  (RawLine.read m none content ending).significant?

lemma read?_eq_some {content : List Char} {idle below : List Lexeme} {x : Lexeme}
    (whole : ofContent none content = idle ++ x :: below) (trivia : ∀ l ∈ idle, l.kind.isTrivia)
    (word : x.kind.isTrivia = false) (m : Mark) (ending : List Char) :
    read? m content ending =
      let start := Token.placeEnd m idle
      some ⟨⟨x.kind, x.text, start⟩, Token.place (start.advance x.kind x.text) below,
        (RawLine.read m none content ending).ending⟩ := by
  have skipped : ∀ t ∈ Token.place m idle, t.kind.isTrivia :=
    Token.kind_of_mem_place (p := fun k => k.isTrivia) (List.forall_mem_map.mpr trivia)
  rw [read?, RawLine.significant?, RawLine.read, whole, Token.place_append,
    List.dropWhile_append_of_pos skipped, Token.place, List.dropWhile_cons_of_neg (by simp [word])]

lemma exists_read? {sort : TokenKind → Bool} {content : List Char} (line : IsLine sort content)
    (m : Mark) (ending : List Char) : ∃ l ∈ read? m content ending, sort l.kind := by
  obtain ⟨idle, x, below, whole, trivia, word, here⟩ := line.exists_first
  exact ⟨_, read?_eq_some whole trivia word m ending, here⟩

end Line

namespace Stream

variable {sort : TokenKind → Bool} {content ending more : List Char}

lemma itemsAt_line (line : IsLine sort content) (plain : sort .fence = false)
    (stop : IsLineEnd ending more) (m : Mark) :
    ∃ l ∈ Line.read? m content ending, sort l.kind ∧
      itemsAt m (content ++ (ending ++ more)) =
        .line l :: itemsAt (Token.placeEnd m (ofContent none content ++ ofEnding ending)) more := by
  obtain ⟨l, found, here⟩ := Line.exists_read? line m ending
  have last : ending = [] → Lexeme.ofText more = [] := by
    rintro rfl
    obtain rfl : more = [] := by simpa [IsLineEnd] using stop
    rfl
  have other : l.kind ≠ .fence := by
    intro fence
    rw [fence, plain] at here
    cases here
  refine ⟨l, found, here, ?_⟩
  rw [itemsAt, Lexeme.ofText_line line plain stop,
    RawLine.ofTokens_place_line m none (fun _ => line.ne_nil) last]
  exact Item.ofLines_cons_line _ found other

end Stream

end FeatureFile
