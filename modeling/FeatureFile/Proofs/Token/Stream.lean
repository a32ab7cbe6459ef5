import FeatureFile.Proofs.Scanner.Lines

namespace FeatureFile.Stream

lemma map_kind_content (text : List Char) :
    (ofText text).content.map Token.kind = Lexeme.kinds (Lexeme.ofText (Text.stripMark text)) := by
  rw [content_ofText, Token.map_kind_place]

lemma text_ne_nil_of_mem_content {text : List Char} {t : Token} (h : t ∈ (ofText text).content) :
    t.text ≠ [] := by
  have mem : t.text ∈ (ofText text).content.map Token.text := List.mem_map_of_mem h
  rw [content_ofText, Token.map_text_place] at mem
  obtain ⟨l, hl, same⟩ := List.mem_map.mp mem
  exact same ▸ Lexeme.text_ne_nil_of_mem_ofText hl

lemma kind_ne_eof_of_mem_content {text : List Char} {t : Token} (h : t ∈ (ofText text).content) :
    t.kind ≠ .eof := by
  have mem : t.kind ∈ (ofText text).content.map Token.kind := List.mem_map_of_mem h
  rw [map_kind_content] at mem
  exact Lexeme.kind_ne_eof_of_mem_ofText mem

lemma tokens_ofText (text : List Char) :
    (ofText text).tokens =
      let lexemes := Lexeme.ofText (Text.stripMark text)
      Token.place (origin text) lexemes ++ [⟨.eof, [], Token.placeEnd (origin text) lexemes⟩] := by
  rw [tokens, eof, content_ofText, stop_eq]

lemma reconstruct_ofText (text : List Char) : (ofText text).reconstruct = Text.stripMark text := by
  rw [reconstruct, List.flatMap_def, tokens, List.map_append, content_ofText, Token.map_text_place]
  simp [eof, ← List.flatMap_def, Lexeme.flatMap_text_ofText]

lemma offset_origin (text : List Char) :
    (origin text).offset = if text.head? = some Text.byteOrderMark then 3 else 0 := by
  obtain ⟨front, whole, length⟩ := Text.mark_append_stripMark text
  have total := congrArg Text.byteLength whole
  simp only [Text.byteLength_append] at total
  simp only [origin, ← length]
  omega

lemma offset_stop_ofText (text : List Char) : (ofText text).stop.offset = Text.byteLength text := by
  obtain ⟨front, whole, length⟩ := Text.mark_append_stripMark text
  rw [stop_eq, Token.offset_placeEnd, Lexeme.flatMap_text_ofText, offset_origin, ← length,
    ← Text.byteLength_append, ← whole]

lemma slice?_of_mem_tokens {text : List Char} {t : Token} (h : t ∈ (ofText text).tokens) :
    Text.slice? text t.start.offset t.stop.offset = some t.text := by
  obtain ⟨front, whole, length⟩ := Text.mark_append_stripMark text
  rcases List.mem_append.mp h with h | h
  · rw [content_ofText] at h
    have slice := Token.slice?_of_mem_place front [] ((offset_origin text).trans length.symm) h
    rwa [Lexeme.flatMap_text_ofText, List.append_nil, ← whole] at slice
  · obtain rfl := List.mem_singleton.mp h
    have slice := Text.slice?_append text [] []
    simpa [eof, offset_stop_ofText] using slice

lemma pairwise_tokens (text : List Char) :
    (ofText text).tokens.Pairwise (fun a b => a.start.offset < b.start.offset) := by
  rw [tokens_ofText]
  exact Token.pairwise_place _ (fun _ h => Lexeme.text_ne_nil_of_mem_ofText h) _ _

lemma isChain_tokens (text : List Char) :
    (ofText text).tokens.IsChain (fun a b => b.start = a.stop) := by
  rw [tokens_ofText]
  exact Token.isChain_place _ _ _ _

theorem tokens_tile_text (text : List Char) :
    let s := ofText text
    s.reconstruct = Text.stripMark text ∧
      s.tokens.head?.map (·.start.offset) =
        some (if text.head? = some Text.byteOrderMark then 3 else 0) ∧
      s.tokens.IsChain (fun a b => b.start = a.stop) ∧
      s.tokens.getLast?.map (·.stop.offset) = some (Text.byteLength text) ∧
      (∀ t ∈ s.tokens, Text.slice? text t.start.offset t.stop.offset = some t.text) ∧
      ∃ front last, s.tokens = front ++ [last] ∧ (∀ t ∈ front, t.kind ≠ .eof ∧ t.text ≠ []) ∧
        last.kind = .eof ∧ last.text = [] := by
  refine ⟨reconstruct_ofText text, ?_, isChain_tokens text, ?_, fun _ => slice?_of_mem_tokens, ?_⟩
  · rw [tokens_ofText]
    have first :=
      Token.head?_start_place (origin text) (Lexeme.ofText (Text.stripMark text)) .eof []
    have offset := congrArg (Option.map Mark.offset) first
    rw [Option.map_map, Option.map_some, offset_origin] at offset
    exact offset
  · simp [tokens, eof, offset_stop_ofText]
  · exact ⟨(ofText text).content, (ofText text).eof, rfl,
      fun t h => ⟨kind_ne_eof_of_mem_content h, text_ne_nil_of_mem_content h⟩, rfl, rfl⟩

end FeatureFile.Stream
