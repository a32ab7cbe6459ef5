import FeatureFile.Proofs.Keyword.Longest
import FeatureFile.Proofs.Token.Passage

namespace FeatureFile

namespace Keyword

def matchAt (text : List Char) : Option (TokenKind × Nat) :=
  (at? text).map fun m => (m.kind, Text.byteLength (text.take m.length))

def IsLongest (text : List Char) (kind : TokenKind) (bytes : Nat) : Prop :=
  ∃ phrase, Stands text kind phrase ∧ Text.byteLength (text.take phrase.toList.length) = bytes ∧
    ∀ kind' phrase', Stands text kind' phrase' → phrase'.toList.length ≤ phrase.toList.length

variable {text : List Char} {kind kind' : TokenKind} {bytes bytes' : Nat}

lemma matchAt_eq_some_iff : matchAt text = some (kind, bytes) ↔ IsLongest text kind bytes := by
  simp only [matchAt, Option.map_eq_some_iff, at?_eq_some_iff, mem_candidates, Prod.mk.injEq]
  constructor
  · rintro ⟨m, ⟨⟨phrase, here, length⟩, most⟩, rfl, rfl⟩
    refine ⟨phrase, here, by rw [length], fun kind' phrase' there => ?_⟩
    exact length ▸ most ⟨kind', phrase'.toList.length⟩ ⟨phrase', there, rfl⟩
  · rintro ⟨phrase, here, width, most⟩
    refine ⟨⟨kind, phrase.toList.length⟩, ⟨⟨phrase, here, rfl⟩, ?_⟩, rfl, width⟩
    rintro n ⟨phrase', there, length⟩
    exact length ▸ most _ phrase' there

lemma IsLongest.unique (h : IsLongest text kind bytes) (h' : IsLongest text kind' bytes') :
    kind = kind' ∧ bytes = bytes' := by
  have same := (matchAt_eq_some_iff.mpr h).symm.trans (matchAt_eq_some_iff.mpr h')
  exact Prod.mk.inj (Option.some.inj same)

lemma at?_nil : at? [] = none := by
  rw [Option.eq_none_iff_forall_ne_some]
  intro m h
  have length := length_pos_of_at? h
  obtain ⟨phrase, here, long⟩ := mem_candidates.mp (at?_eq_some_iff.mp h).1
  have same := here.same.length_eq
  rw [List.take_nil, List.length_nil] at same
  omega

end Keyword

structure Text.IsUnmarked (text : List Char) : Prop where
  sign : ∀ c ∈ text.head?, c ∉ ['#', '|', '@']
  fence : ∀ f : Fence, ¬ f.marker <+: text

namespace Lexeme

variable {text : List Char}

lemma plainLine_of_unmarked (h : Text.IsUnmarked text) :
    plainLine text =
      match Keyword.at? text with
      | some m => keywordLine m text
      | none => cut freeText none 0 text := by
  have unfenced : Fence.at? text = none := by
    rw [Option.eq_none_iff_forall_ne_some]
    exact fun f opens => h.fence f (List.isPrefixOf_iff_prefix.mp (Fence.isPrefixOf_of_at? opens))
  rw [plainLine.eq_def, unfenced]
  split
  case h_1 => rw [Keyword.at?_nil, cut]
  case h_5 => rfl
  all_goals exact absurd (h.sign _ rfl) (by simp)

lemma isKeyword_of_isPad {k : TokenKind} (pad : k.isPad) : k.isKeyword = false := by
  cases k <;> first | rfl | cases pad

end Lexeme

namespace Passage

open Keyword (matchAt)

variable {text : List Char} {p : Passage}

lemma head?_tokens_of_matchAt {kind : TokenKind} {bytes : Nat} (outside : (none, p) ∈ lines text)
    (unmarked : Text.IsUnmarked p.unpadded.text)
    (found : matchAt p.unpadded.text = some (kind, bytes)) :
    ∃ t, (p.unpadded.tokens text).head? = some t ∧ t.kind = kind ∧
      t.start.offset = p.unpadded.start ∧ t.stop.offset = p.unpadded.start + bytes := by
  have read := isRead_plainLine outside
  obtain ⟨m, here, whole⟩ := Option.map_eq_some_iff.mp found
  obtain ⟨kind, width⟩ := Prod.mk.inj whole
  rw [Lexeme.plainLine_of_unmarked unmarked, here] at read
  obtain ⟨place, start, tokens, -⟩ := read.exists_place
  rw [tokens, ← start, ← width]
  exact ⟨_, rfl, kind, rfl, Token.offset_stop _⟩

lemma isKeyword_of_mem_tokens (outside : (none, p) ∈ lines text)
    (unmarked : Text.IsUnmarked p.unpadded.text) (none : matchAt p.unpadded.text = none) :
    ∀ t ∈ p.tokens text, t.kind.isKeyword = false := by
  obtain ⟨place, -, tokens, -⟩ := (isRead_of_mem_lines outside).exists_place
  have nothing : Keyword.at? p.unpadded.text = .none := Option.map_eq_none_iff.mp none
  have rest := Lexeme.plainLine_of_unmarked unmarked
  rw [nothing] at rest
  have pads : ∀ k ∈ Lexeme.kinds ((p.text.takeWhile Text.isPad).map Lexeme.pad), k.isPad := by
    simpa [Lexeme.kinds, Lexeme.pad] using fun c _ => Lexeme.isPad_padKind c
  rw [tokens]
  refine Token.kind_of_mem_place (p := (·.isKeyword = false)) fun k hk => ?_
  rw [Lexeme.ofContent.eq_def, Lexeme.kinds, List.map_append] at hk
  rcases List.mem_append.mp hk with hk | hk
  · exact Lexeme.isKeyword_of_isPad (pads k hk)
  · exact Lexeme.isKeyword_of_isFree (Lexeme.isFree_of_mem_cut k (rest ▸ hk))

end Passage

namespace Keyword

/-- The keyword at the start of a text is the longest phrase there that is properly ended, and the order
in which phrases are tried does not matter. On the lines of a text, where nothing else decides, a
keyword is found where and only where it stands. -/
theorem keywords_recognized (text : List Char) :
    (∀ kind bytes, matchAt text = some (kind, bytes) ↔ IsLongest text kind bytes) ∧
      (∀ kind bytes kind' bytes', IsLongest text kind bytes → IsLongest text kind' bytes' →
        kind = kind' ∧ bytes = bytes') ∧
      (∀ table : List (TokenKind × String), table.Perm entries →
        longest (table.filterMap fun e => matchPhrase text e.1 e.2) = at? text ∧
          (table.Pairwise (fun e f => f.2.toList.length ≤ e.2.toList.length) →
            table.findSome? (fun e => matchPhrase text e.1 e.2) = at? text)) ∧
      ∀ p, (none, p) ∈ Passage.lines text → Text.IsUnmarked p.unpadded.text →
        (∀ kind bytes, matchAt p.unpadded.text = some (kind, bytes) →
          ∃ t, (p.unpadded.tokens text).head? = some t ∧ t.kind = kind ∧
            t.start.offset = p.unpadded.start ∧ t.stop.offset = p.unpadded.start + bytes) ∧
        (matchAt p.unpadded.text = none → ∀ t ∈ p.tokens text, t.kind.isKeyword = false) := by
  refine ⟨fun _ _ => matchAt_eq_some_iff, fun _ _ _ _ => IsLongest.unique,
    fun table perm => ⟨?_, findSome?_eq_at? perm⟩, fun p outside unmarked => ⟨fun _ _ => ?_, ?_⟩⟩
  · refine longest_of_perm ?_
    rw [candidates_eq]
    exact perm.filterMap _
  · exact Passage.head?_tokens_of_matchAt outside unmarked
  · exact Passage.isKeyword_of_mem_tokens outside unmarked

theorem keywords_recognized_padded :
    let text := "  Given a".toList
    let p : Passage := ⟨[], text⟩
    (none, p) ∈ Passage.lines text ∧ ∃ t, (p.unpadded.tokens text).head? = some t ∧
      t.kind = .step .given ∧ t.start.offset = 2 ∧ t.stop.offset = 7 := by
  have line : (none, ⟨[], "  Given a".toList⟩) ∈ Passage.lines "  Given a".toList := by decide +kernel
  have first : (Passage.unpadded ⟨[], "  Given a".toList⟩).text.head? = some 'G' := by decide +kernel
  have unmarked : Text.IsUnmarked (Passage.unpadded ⟨[], "  Given a".toList⟩).text := by
    refine ⟨fun c here => ?_, fun f => by cases f <;> decide +kernel⟩
    obtain rfl : 'G' = c := Option.some.inj (first ▸ here)
    decide
  have start : (Passage.unpadded ⟨[], "  Given a".toList⟩).start = 2 := by decide +kernel
  obtain ⟨-, -, -, lines⟩ := keywords_recognized "  Given a".toList
  obtain ⟨t, head, kind, begins, ends⟩ :=
    (lines _ line unmarked).1 (.step .given) 5 (by decide +kernel)
  rw [start] at begins ends
  exact ⟨line, t, head, kind, begins, ends⟩

end Keyword

end FeatureFile
