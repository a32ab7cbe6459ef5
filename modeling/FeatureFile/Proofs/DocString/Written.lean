import FeatureFile.Proofs.Document.Written

namespace FeatureFile

open Text (IsParted SourceLine isBreak isPad)

namespace Fence

lemma at?_marker (fence : Fence) (rest : List Char) : at? (fence.marker ++ rest) = some fence := by
  cases fence <;> rfl

lemma isPrefixOf_marker (fence : Fence) : fence.marker.isPrefixOf fence.marker = true := by
  cases fence <;> rfl

lemma dropWhile_marker {pads : List Char} (all : ∀ c ∈ pads, isPad c) (fence : Fence)
    (rest : List Char) :
    (pads ++ (fence.marker ++ rest)).dropWhile isPad = fence.marker ++ rest := by
  rw [List.dropWhile_append_of_pos all]
  cases fence <;> rfl

lemma takeWhile_marker {pads : List Char} (all : ∀ c ∈ pads, isPad c) (fence : Fence)
    (rest : List Char) : (pads ++ (fence.marker ++ rest)).takeWhile isPad = pads := by
  rw [List.takeWhile_append_of_pos all]
  cases fence <;> exact List.append_nil _

lemma isBreak_of_mem_marker (fence : Fence) : ∀ c ∈ fence.marker, isBreak c = false := by
  cases fence <;> decide

end Fence

namespace Lexeme

variable {pads : List Char} {fence : Fence}

lemma ofContent_opening (all : ∀ c ∈ pads, isPad c) (fence : Fence) (media : List Char) :
    ofContent none (pads ++ (fence.marker ++ media)) =
      pads.map pad ++ ⟨.fence, fence.marker, none⟩ :: cut docLine () 0 media := by
  rw [ofContent, Fence.takeWhile_marker all, Fence.dropWhile_marker all]
  cases fence <;> rfl

lemma ofContent_closing (all : ∀ c ∈ pads, isPad c) (fence : Fence) :
    ofContent (some fence) (pads ++ fence.marker) =
      pads.map pad ++ [⟨.fence, fence.marker, none⟩] := by
  have front := Fence.takeWhile_marker all fence []
  have back := Fence.dropWhile_marker all fence []
  rw [List.append_nil] at front back
  rw [ofContent, front, back]
  cases fence <;> rfl

lemma ofLines_inner {ls : List SourceLine}
    (inner : ∀ l ∈ ls, fence.marker.isPrefixOf (l.content.dropWhile isPad) = false) :
    Fence.behindAll (some fence) ls = some fence ∧
      ∀ l ∈ ofLines (some fence) ls, l.kind ≠ .fence ∧ l.openQuote = none := by
  induction ls with
  | nil => exact ⟨rfl, by simp [ofLines]⟩
  | cons line ls ih =>
    obtain ⟨first, others⟩ := List.forall_mem_cons.mp inner
    obtain ⟨behind, below⟩ := ih others
    have stays : Fence.behind (some fence) (line.content.dropWhile isPad) = some fence :=
      if_neg (by simp [first])
    refine ⟨?_, ?_⟩
    · rw [Fence.behindAll, List.foldl_cons, stays]
      exact behind
    · rw [ofLines, stays]
      refine List.forall_mem_append.mpr ⟨List.forall_mem_append.mpr ⟨fun l hl => ⟨?_, ?_⟩, ?_⟩, below⟩
      · rcases List.mem_append.mp hl with hl | hl
        · intro same
          have pad := isTrivia_pads _ l hl
          rw [same] at pad
          cases pad
        · have text : l ∈ cut docLine () 0 (line.content.dropWhile isPad) := by
            simpa [fencedLine, first] using hl
          have verbatim := isVerbatim_of_mem_cut l.kind (List.mem_map_of_mem text)
          intro same
          rw [same] at verbatim
          cases verbatim
      · exact openQuote_of_mem_ofContent (by simp [stays]) hl
      · cases line.ending <;> simp [ofEnding]

end Lexeme

structure WrittenDocString where
  fence : Fence
  indent : List Char
  media : List Char
  content : List Char
  closing : List Char
  padded : ∀ c ∈ indent ++ closing, isPad c
  inline : ∀ c ∈ media, isBreak c = false
  ended : Text.EndsLine content
  inner : ∀ l ∈ Text.lines content,
    fence.marker.isPrefixOf (l.content.dropWhile isPad) = false

namespace WrittenDocString

variable (doc : WrittenDocString)

def opening : List Char :=
  doc.indent ++ (doc.fence.marker ++ doc.media)

def last : List Char :=
  doc.closing ++ doc.fence.marker

def text : List Char :=
  doc.opening ++ (['\n'] ++ (doc.content ++ (doc.last ++ ['\n'])))

lemma inline_opening : ∀ c ∈ doc.opening, isBreak c = false := by
  obtain ⟨indent, -⟩ := List.forall_mem_append.mp doc.padded
  exact List.forall_mem_append.mpr ⟨fun c hc => Text.isBreak_of_isPad (indent c hc),
    List.forall_mem_append.mpr ⟨doc.fence.isBreak_of_mem_marker, doc.inline⟩⟩

lemma inline_last : ∀ c ∈ doc.last, isBreak c = false := by
  obtain ⟨-, closing⟩ := List.forall_mem_append.mp doc.padded
  exact List.forall_mem_append.mpr ⟨fun c hc => Text.isBreak_of_isPad (closing c hc),
    doc.fence.isBreak_of_mem_marker⟩

lemma opening_ne_nil : doc.opening ≠ [] := by
  rw [opening]
  cases doc.fence <;> simp [Fence.marker]

lemma last_ne_nil : doc.last ≠ [] := by
  simp only [last, ne_eq, List.append_eq_nil_iff, not_and]
  cases doc.fence <;> simp [Fence.marker]

lemma ofText_text (rest : List Char) :
    Lexeme.ofText (doc.text ++ rest) =
      Lexeme.ofContent none doc.opening ++ Lexeme.ofEnding ['\n'] ++
        (Lexeme.ofLines (some doc.fence) (Text.lines doc.content) ++
          (Lexeme.ofContent (some doc.fence) doc.last ++ Lexeme.ofEnding ['\n'] ++
            Lexeme.ofText rest)) := by
  obtain ⟨indent, closing⟩ := List.forall_mem_append.mp doc.padded
  -- A carriage return at the end of the content stays a break of its own.
  have parted : IsParted doc.content (doc.last ++ (['\n'] ++ rest)) :=
    ⟨doc.ended, fun _ => Text.head?_append_ne_feed doc.inline_last doc.last_ne_nil _⟩
  have opens : Fence.behind none (doc.opening.dropWhile isPad) = some doc.fence := by
    rw [opening, Fence.dropWhile_marker indent]
    exact Fence.at?_marker _ _
  have closes : Fence.behind (some doc.fence) (doc.last.dropWhile isPad) = none := by
    have drop := Fence.dropWhile_marker closing doc.fence []
    rw [List.append_nil] at drop
    rw [last, drop]
    exact if_pos doc.fence.isPrefixOf_marker
  rw [text, List.append_assoc, List.append_assoc, List.append_assoc, List.append_assoc, Lexeme.ofText,
    Text.lines_line doc.inline_opening (.inl rfl) (by simp), Text.lines_append parted,
    Text.lines_line doc.inline_last (.inl rfl) (by simp), Lexeme.ofLines, opens,
    Lexeme.ofLines_append, (Lexeme.ofLines_inner doc.inner).1, Lexeme.ofLines, closes]
  rfl

lemma isClosed_text {rest : List Char} (closed : ∀ l ∈ Lexeme.ofText rest, l.IsClosed) :
    ∀ l ∈ Lexeme.ofText (doc.text ++ rest), l.IsClosed := by
  obtain ⟨indent, closing⟩ := List.forall_mem_append.mp doc.padded
  have feed : ∀ l ∈ Lexeme.ofEnding ['\n'], l.IsClosed := by
    simp [Lexeme.ofEnding, Lexeme.IsClosed]
  have pads (text : List Char) : ∀ l ∈ text.map Lexeme.pad, l.IsClosed :=
    fun l hl => .inr (Lexeme.closed_pads text l hl)
  have fence : Lexeme.IsClosed ⟨.fence, doc.fence.marker, none⟩ := .inl rfl
  rw [ofText_text, opening, last, Lexeme.ofContent_opening indent, Lexeme.ofContent_closing closing]
  refine List.forall_mem_append.mpr ⟨List.forall_mem_append.mpr ⟨List.forall_mem_append.mpr
    ⟨pads _, List.forall_mem_cons.mpr ⟨fence, fun l hl => .inr ?_⟩⟩, feed⟩, ?_⟩
  · exact Lexeme.openQuote_of_mem_docLine hl
  · refine List.forall_mem_append.mpr ⟨fun l hl => .inr ?_, List.forall_mem_append.mpr
      ⟨List.forall_mem_append.mpr ⟨List.forall_mem_append.mpr ⟨pads _, by simpa using fence⟩, feed⟩,
        closed⟩⟩
    exact ((Lexeme.ofLines_inner doc.inner).2 l hl).2

end WrittenDocString

namespace Item

lemma ofLines_unfenced {ls : List RawLine} (unfenced : ∀ l ∈ ls, ∀ t ∈ l.content, t.kind ≠ .fence)
    (opening : Line) (content : List Token) (more : List RawLine) :
    ofLines (some (opening, content)) (ls ++ more) =
      ofLines (some (opening, content ++ ls.flatMap RawLine.tokens)) more := by
  induction ls generalizing content with
  | nil => simp
  | cons l ls ih =>
    obtain ⟨first, others⟩ := List.forall_mem_cons.mp unfenced
    have inner : closing? l = none := by
      cases here : closing? l with
      | none => rfl
      | some found =>
        obtain ⟨indent, fence, rest⟩ := found
        obtain ⟨whole, kind, -⟩ := closing?_eq_some here
        exact absurd kind (first fence (by simp [whole]))
    rw [List.cons_append, ofLines, inner]
    exact (ih others _).trans (by rw [List.flatMap_cons, List.append_assoc])

lemma closing?_of_content {l : RawLine} {pads more : List Token} {fence : Token}
    (content : l.content = pads ++ fence :: more) (padded : ∀ t ∈ pads, t.kind.isPad)
    (kind : fence.kind = .fence) : closing? l = some (pads, fence, more) := by
  have word : fence.kind.isPad = false := by simp [kind, TokenKind.isPad]
  rw [closing?, content, List.dropWhile_append_of_pos padded,
    List.dropWhile_cons_of_neg (by simp [word]), List.takeWhile_append_of_pos padded,
    List.takeWhile_cons_of_neg (by simp [word]), List.append_nil]
  exact if_pos kind

lemma ofLines_block {first last : RawLine} {inner : List RawLine} {opening : Line}
    {indent : List Token} {fence : Token} (opens : first.significant? = some opening)
    (kind : opening.kind = .fence) (unfenced : ∀ l ∈ inner, ∀ t ∈ l.content, t.kind ≠ .fence)
    (closes : closing? last = some (indent, fence, [])) (more : List RawLine) :
    ofLines none (first :: (inner ++ last :: more)) =
      block ⟨opening, inner.flatMap RawLine.tokens, some (indent, fence)⟩ :: ofLines none more := by
  rw [ofLines, opens]
  dsimp only
  rw [if_pos kind, ofLines_unfenced unfenced, ofLines, closes]
  rfl

end Item

structure Block.Holds (b : Block) (doc : WrittenDocString) : Prop where
  fence : b.opening.kind = .fence
  closed : b.closing.isSome
  content : b.content.flatMap (·.text) = doc.content
  media : b.opening.tail.flatMap (·.text) = doc.media
  verbatim : ∀ t ∈ b.opening.tail, t.kind.isVerbatim
  ending : ∃ t ∈ b.opening.ending, t.kind = .eol

namespace WrittenDocString

open Token (place placeEnd)

variable (doc : WrittenDocString) (m : Mark)

lemma exists_opening :
    ∃ l ∈ Line.read? m doc.opening ['\n'], l.kind = .fence ∧
      l.tail.flatMap (·.text) = doc.media ∧ (∀ t ∈ l.tail, t.kind.isVerbatim) ∧
      ∃ t ∈ l.ending, t.kind = .eol := by
  obtain ⟨indent, -⟩ := List.forall_mem_append.mp doc.padded
  refine ⟨_, Line.read?_eq_some (Lexeme.ofContent_opening indent doc.fence doc.media)
    (Lexeme.isTrivia_pads _) rfl m ['\n'], rfl, ?_, ?_, _, rfl, rfl⟩
  · rw [Token.flatMap_text_place]
    exact Lexeme.flatMap_text_cut ..
  · exact Token.kind_of_mem_place (p := fun k => k.isVerbatim) Lexeme.isVerbatim_of_mem_cut

lemma exists_closing :
    ∃ indent fence, Item.closing? (RawLine.read m (some doc.fence) doc.last ['\n']) =
      some (indent, fence, []) := by
  obtain ⟨-, closing⟩ := List.forall_mem_append.mp doc.padded
  have content : (RawLine.read m (some doc.fence) doc.last ['\n']).content =
      place m (doc.closing.map Lexeme.pad) ++
        [⟨.fence, doc.fence.marker, placeEnd m (doc.closing.map Lexeme.pad)⟩] := by
    rw [RawLine.read, last, Lexeme.ofContent_closing closing, Token.place_append]
    rfl
  exact ⟨_, _, Item.closing?_of_content content (Token.kind_pads m doc.closing) rfl⟩

lemma unfenced_content :
    ∀ l ∈ RawLine.ofTokens (place m (Lexeme.ofLines (some doc.fence) (Text.lines doc.content))),
      ∀ t ∈ l.content, t.kind ≠ .fence := by
  intro l hl t ht
  have whole := RawLine.flatMap_tokens_ofTokens
    (place m (Lexeme.ofLines (some doc.fence) (Text.lines doc.content)))
  have mem : t ∈ place m (Lexeme.ofLines (some doc.fence) (Text.lines doc.content)) :=
    whole ▸ List.mem_flatMap.mpr ⟨l, hl, List.mem_append_left _ ht⟩
  refine Token.kind_of_mem_place (p := (· ≠ .fence)) (List.forall_mem_map.mpr fun l hl => ?_) t mem
  exact ((Lexeme.ofLines_inner doc.inner).2 l hl).1

lemma itemsAt_text (rest : List Char) :
    ∃ (b : Block) (n : Mark), Stream.itemsAt m (doc.text ++ rest) = .block b :: Stream.itemsAt n rest ∧
      b.Holds doc := by
  obtain ⟨l, opens, kind, media, verbatim, ending⟩ := doc.exists_opening m
  have ended := Text.ending_ne_nil doc.ended
  rw [Stream.itemsAt, doc.ofText_text,
    RawLine.ofTokens_place_line m none (fun _ => doc.opening_ne_nil) (by simp), Token.place_append,
    RawLine.ofTokens_place_append _ _ ended,
    RawLine.ofTokens_place_line _ (some doc.fence) (fun _ => doc.last_ne_nil) (by simp)]
  obtain ⟨indent, fence, closes⟩ := doc.exists_closing _
  rw [Item.ofLines_block opens kind (doc.unfenced_content _) closes]
  refine ⟨_, _, rfl, kind, rfl, ?_, media, verbatim, ending⟩
  rw [RawLine.flatMap_tokens_ofTokens, Token.flatMap_text_place, Lexeme.flatMap_text_ofLines]
  exact Text.flatMap_text_lines doc.content

end WrittenDocString

end FeatureFile
