import FeatureFile.Parse
import FeatureFile.Proofs.Descent.LineReading

namespace FeatureFile

namespace Ahead

variable {left : List Token}

def EndsOnce (left : List Token) : Prop :=
  ∀ t rest, t :: rest <:+ left → t.kind = .eof → rest = []

namespace EndsOnce

lemma of_suffix {rest : List Token} (h : EndsOnce left) (suffix : rest <:+ left) : EndsOnce rest :=
  fun t more tail => h t more (tail.trans suffix)

lemma of_takes {rest : List Token} (h : EndsOnce left) (taken : Takes left rest) :
    EndsOnce rest := by
  obtain ⟨front, rfl, -⟩ := taken
  exact h.of_suffix (List.suffix_append front rest)

lemma append {content : List Token} (inner : ∀ t ∈ content, t.kind ≠ .eof) (eof : Token) :
    EndsOnce (content ++ [eof]) := by
  rintro t rest ⟨front, cut⟩ kind
  rcases List.eq_nil_or_concat rest with rfl | ⟨rest, last, rfl⟩
  · rfl
  · rw [List.concat_eq_append, ← List.cons_append, ← List.append_assoc] at cut
    have early : t ∈ content := by
      rw [← (List.append_inj' cut rfl).1]
      exact List.mem_append_right _ List.mem_cons_self
    exact absurd kind (inner t early)

end EndsOnce

lemma exists_cons_dropWhile (more : peek left ≠ .eof) :
    ∃ t rest, left.dropWhile (·.kind.isTrivia) = t :: rest ∧ t.kind = peek left ∧
      t.kind.isTrivia = false := by
  rw [peek_eq_current] at more ⊢
  have first := List.head?_dropWhile_not (fun t : Token => t.kind.isTrivia) left
  cases cut : left.dropWhile (·.kind.isTrivia) with
  | nil =>
    rw [cut] at more
    exact absurd rfl more
  | cons t rest =>
    rw [cut] at first
    exact ⟨t, rest, rfl, rfl, by simpa using first⟩

lemma peekBehindTags_of_ne (untagged : peek left ≠ .atSign) : peekBehindTags left = peek left := by
  by_cases ends : peek left = .eof
  · rw [ends]
    by_contra more
    exact peek_ne_eof more ends
  · obtain ⟨t, rest, cut, kind, content⟩ := exists_cons_dropWhile ends
    have broken : t.kind ≠ .eol := by
      intro eol
      rw [eol] at content
      cases content
    rw [← kind] at untagged
    rw [← peekBehindTags_dropWhile, cut, peekBehindTags, kindOffTags, if_neg broken,
      if_neg untagged, content, ← kind]
    rfl

lemma kindOffTags_eq (h : EndsOnce left) (stop : Reader.isInline (current left) = false) :
    kindOffTags true left = kindOffTags false left := by
  cases left with
  | nil => rfl
  | cons t rest =>
    have kind : t.kind = .eol ∨ t.kind = .eof := by
      change Reader.isInline t.kind = false at stop
      by_contra other
      obtain ⟨broken, ends⟩ := not_or.mp other
      simp [Reader.isInline, broken, ends] at stop
    rcases kind with eol | ends
    · rw [kindOffTags, kindOffTags, if_pos eol, if_pos eol]
    · obtain rfl := h t rest List.suffix_rfl ends
      simp [kindOffTags, ends, TokenKind.isTrivia]

end Ahead

namespace Reader

open Ahead

variable {left : List Token}

lemma read_tagLine (left : List Token) :
    (tagLine.read left).2 = (left.dropWhile (·.kind.isTrivia)).dropWhile (isInline ·.kind) := by
  rw [tagLine, read_bind, read_afterTrivia]
  exact (read_tagParts _).2

lemma peekBehindTags_tagLine (h : EndsOnce left) (tagged : peek left = .atSign) :
    peekBehindTags (tagLine.read left).2 = peekBehindTags left := by
  have inner : peek left ≠ .eof := by simp [tagged]
  obtain ⟨sign, more, cut, kind, -⟩ := exists_cons_dropWhile inner
  rw [tagged] at kind
  have inline : isInline sign.kind := by
    rw [kind]
    rfl
  have ends : EndsOnce (more.dropWhile (isInline ·.kind)) := by
    apply h.of_suffix
    apply (List.dropWhile_suffix _).trans
    apply (List.suffix_cons sign more).trans
    rw [← cut]
    exact List.dropWhile_suffix _
  have stop : isInline (current (more.dropWhile (isInline ·.kind))) = false := by
    have first := List.head?_dropWhile_not (fun t : Token => isInline t.kind) more
    cases rest : more.dropWhile (isInline ·.kind) with
    | nil => rfl
    | cons t rest' =>
      rw [rest] at first
      have last : isInline t.kind = false := by simpa using first
      exact last
  have front : ∀ t ∈ more.takeWhile (isInline ·.kind), isInline t.kind := fun _ ht =>
    List.mem_takeWhile_imp (p := fun t : Token => isInline t.kind) ht
  calc peekBehindTags (tagLine.read left).2
      = kindOffTags false (more.dropWhile (isInline ·.kind)) := by
        rw [read_tagLine, cut, List.dropWhile_cons_of_pos (by exact inline), peekBehindTags]
    _ = kindOffTags true (more.dropWhile (isInline ·.kind)) := (kindOffTags_eq ends stop).symm
    _ = kindOffTags true more := by
        rw [← kindOffTags_append front, List.takeWhile_append_dropWhile]
    _ = peekBehindTags (sign :: more) := by
        simp [peekBehindTags, kindOffTags, kind]
    _ = peekBehindTags left := by rw [← cut, peekBehindTags_dropWhile]

lemma peek_tags (h : EndsOnce left) : peek (tags.run.read left).2 = peekBehindTags left := by
  change peek (tags.readAll left).2 = _
  induction left using Loop.readAll.induct tags with
  | case1 left goes ih =>
    have tagged : peek left = .atSign := of_decide_eq_true goes
    rw [Loop.readAll_of_goes _ goes]
    change peek (tags.readAll (tagLine.read left).2).2 = _
    exact (ih (h.of_takes (tagLine.takes left))).trans (peekBehindTags_tagLine h tagged)
  | case2 left stops =>
    rw [Loop.readAll_of_stops _ (Bool.eq_false_iff.mpr stops)]
    have untagged : peek left ≠ .atSign := fun tagged => stops (decide_eq_true tagged)
    exact (peekBehindTags_of_ne untagged).symm

lemma exists_header (more : peek left ≠ .eof) :
    ∃ l, (nextLine.read left).1 = some l ∧ l.kind = peek left ∧ significant? left = some l.head := by
  obtain ⟨t, rest, cut, kind, -⟩ := exists_cons_dropWhile more
  rw [nextLine, read_afterTrivia, significant?_eq, cut, line, read_bind,
    read_bump (fun eof => more (kind.symm.trans eof))]
  exact ⟨_, rfl, kind, rfl⟩

lemma exists_heading (h : EndsOnce left) (more : peekBehindTags left ≠ .eof) :
    ∃ found, (heading.read left).1 = some found ∧ found.kind = peekBehindTags left ∧
      significant? (tags.run.read left).2 = some found.header.head := by
  rw [← peek_tags h] at more ⊢
  obtain ⟨l, read, kind, first⟩ := exists_header more
  rw [heading, read_bind, read_bind, read]
  exact ⟨_, rfl, kind, first⟩

end Reader

namespace Parsed

open Ahead

/-- From every token on, what looking past tag lines finds is what looking past layout finds once
the tag lines have been read, which takes nothing where there is none. So a section for which the
former decides has just the token found in front of its header. -/
theorem lookaheads_agree (options : Options) (text : List Char) (n : Nat) :
    let left := (parse options text).tokens.drop n
    let rest := (Reader.tags.run.read left).2
    peekBehindTags left = peek rest ∧
      (peek left = .atSign → Advances left rest) ∧ (peek left ≠ .atSign → rest = left) ∧
      (peekBehindTags left ≠ .eof → ∃ t, significant? rest = some t ∧ t.kind = peekBehindTags left ∧
        (Reader.heading.read left).1.map (·.header.head) = some t ∧
        (Reader.rule.read left).1.map (·.heading.header.head) = some t ∧
        (Reader.scenario.read left).1.map (·.heading.header.head) = some t ∧
        (Reader.examples.read left).1.map (·.heading.header.head) = some t) := by
  intro left rest
  have once : EndsOnce left :=
    (EndsOnce.append (fun t ht => Stream.kind_ne_eof_of_mem_content ht) _).of_suffix
      (List.drop_suffix n _)
  refine ⟨(Reader.peek_tags once).symm, fun tagged => ?_, fun untagged => ?_, fun more => ?_⟩
  · exact Reader.tags.advances_run left (decide_eq_true tagged)
  · change (Reader.tags.readAll left).2 = left
    rw [Loop.readAll_of_stops _ (decide_eq_false untagged)]
  · obtain ⟨found, read, kind, first⟩ := Reader.exists_heading once more
    refine ⟨found.header.head, first, kind, ?_, ?_, ?_, ?_⟩
    · rw [read, Option.map_some]
    · rw [Reader.rule, Reader.read_bind, read]
      rfl
    · rw [Reader.scenario, Reader.read_bind, read]
      rfl
    · rw [Reader.examples, Reader.read_bind, read]
      rfl

end Parsed

end FeatureFile
