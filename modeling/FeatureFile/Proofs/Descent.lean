import FeatureFile.Parse
import FeatureFile.Proofs.Descent.Opening
import FeatureFile.Proofs.Descent.Turns

namespace FeatureFile

def Stream.eofIndex (s : Stream) : Nat :=
  s.tokens.findIdx (·.kind = .eof)

lemma Stream.eofIndex_ofText (text : List Char) :
    (ofText text).eofIndex = (ofText text).content.length := by
  have none : (ofText text).content.findIdx (·.kind = .eof) = (ofText text).content.length := by
    refine List.findIdx_eq_length.mpr fun t ht => ?_
    simpa using kind_ne_eof_of_mem_content ht
  rw [eofIndex, tokens, List.findIdx_append, none, if_neg (Nat.lt_irrefl _)]
  simp [eof]

section Positions

variable {content left : List Token} {eof : Token} {n : Nat}

lemma Takes.exists_drop (last : eof.kind = .eof) (inside : n ≤ content.length)
    (h : Takes ((content ++ [eof]).drop n) left) :
    ∃ m, n ≤ m ∧ m ≤ content.length ∧ left = (content ++ [eof]).drop m := by
  obtain ⟨taken, cut, inner⟩ := h
  refine ⟨n + taken.length, Nat.le_add_right _ _, ?_, ?_⟩
  · by_contra beyond
    have front : eof ∈ taken := by
      rw [List.drop_append_of_le_length inside] at cut
      have whole : content.drop n ++ [eof] <+: taken :=
        List.prefix_of_prefix_length_le (cut ▸ List.prefix_rfl) (List.prefix_append taken left)
          (by simp; omega)
      exact whole.subset (List.mem_append_right _ (List.mem_singleton_self eof))
    exact inner eof front last
  · rw [← List.drop_drop, cut, List.drop_left]

lemma Advances.exists_drop (last : eof.kind = .eof)
    (h : Advances ((content ++ [eof]).drop n) left) :
    ∃ m, n < m ∧ m ≤ content.length ∧ left = (content ++ [eof]).drop m := by
  have shorter := h.shorter
  rw [List.length_drop, List.length_append, List.length_singleton] at shorter
  obtain ⟨m, start, stop, rfl⟩ := h.takes.exists_drop last (by omega)
  rw [List.length_drop, List.length_append, List.length_singleton] at shorter
  exact ⟨m, by omega, stop, rfl⟩

end Positions

lemma Reader.read_feature {eof : Token} {left : List Token} {ls : List RawLine}
    (h : Spans eof left ls) (scanned : Scanned false ls)
    (chain : left.IsChain fun a b => b.start = a.stop) :
    (feature.read left).1 = Feature.ofLines eof ls ∧ Holds eof (feature.read left).2 [] := by
  obtain ⟨front, below⟩ := read_opening_of_spans h scanned chain
  obtain ⟨whole, behind⟩ := gives_body (opening.read left).1 _ _ below
  rw [feature, read_bind, whole, front]
  exact ⟨rfl, behind⟩

lemma Holds.isTrivia {eof : Token} {content : List Token} (h : Holds eof (content ++ [eof]) []) :
    ∀ t ∈ content, t.kind.isTrivia := by
  obtain ⟨last, whole⟩ := h
  rw [List.dropWhile_append] at whole
  split at whole
  next empty => exact List.dropWhile_eq_nil_iff.mp (List.isEmpty_iff.mp empty)
  next some => exact absurd (List.append_left_eq_self.mp whole) (by simpa using some)

namespace Parsed

/-- Reading never moves beyond the end of input, and an iteration of one of its loops that does not
leave the loop takes a token at least, wherever it begins. So does every iteration that reading the
text comes to, and each is one of these loops. Read from its first token on, a text gives its
document, and all that is left in front of the end of input is layout and comments. -/
theorem reading_advances (options : Options) (text : List Char) :
    let p := parse options text
    (∀ (α : Type) (x : Reader α), ∀ n ≤ p.stream.eofIndex,
      ∃ m, n ≤ m ∧ m ≤ p.stream.eofIndex ∧ (x.read (p.tokens.drop n)).2 = p.tokens.drop m) ∧
    (∀ (loop : Repetition) (n : Nat), ∀ left ∈ loop.next (p.tokens.drop n),
      ∃ m, n < m ∧ m ≤ p.stream.eofIndex ∧ left = p.tokens.drop m) ∧
    (∀ turn ∈ Reader.feature.turns p.tokens, turn.after ∈ turn.loop.next turn.before ∧
      ∃ n m, n < m ∧ m ≤ p.stream.eofIndex ∧ turn.before = p.tokens.drop n ∧
        turn.after = p.tokens.drop m) ∧
    ∃ n ≤ p.stream.eofIndex, Reader.feature.read p.tokens = (p.feature, p.tokens.drop n) ∧
      ∀ t ∈ p.stream.content.drop n, t.kind.isTrivia := by
  intro p
  have last : p.stream.eof.kind = .eof := rfl
  have index : p.stream.eofIndex = p.stream.content.length := Stream.eofIndex_ofText text
  have tokens : p.tokens = p.stream.content ++ [p.stream.eof] := rfl
  rw [index, tokens]
  refine ⟨fun α x n inside => (x.takes _).exists_drop last inside,
    fun loop n left h => (loop.advances_of_mem_next h).exists_drop last,
    fun turn ht => ⟨Reader.isNamed_feature _ turn ht, ?_⟩, ?_⟩
  · obtain ⟨takes, advances⟩ := Reader.feature.advances _ turn ht
    obtain ⟨n, -, -, before⟩ := takes.exists_drop (n := 0) last (Nat.zero_le _)
    rw [before] at advances
    obtain ⟨m, more, inside, after⟩ := advances.exists_drop last
    exact ⟨n, m, more, inside, before, after⟩
  have spans : Spans p.stream.eof (p.stream.content ++ [p.stream.eof])
      (RawLine.ofTokens p.stream.content) :=
    { last := last
      scanned := ⟨false, scanned_ofText text⟩
      chain := RawLine.isChain_ofTokens _
      lines := by rw [RawLine.flatMap_tokens_ofTokens] }
  obtain ⟨whole, behind⟩ := Reader.read_feature spans (scanned_ofText text)
    (Stream.isChain_tokens text)
  obtain ⟨n, -, inside, rest⟩ :=
    Takes.exists_drop (n := 0) last (Nat.zero_le _) (Reader.feature.takes _)
  refine ⟨n, inside, Prod.ext whole rest, ?_⟩
  rw [List.drop_zero] at rest
  rw [rest, List.drop_append_of_le_length inside] at behind
  exact behind.isTrivia

end Parsed

end FeatureFile
