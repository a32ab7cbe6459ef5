import FeatureFile.Proofs.Descent.Agreement

/-!
The front of a file from its tokens. In the place of a feature header lines are skipped one by one,
whether they lie in a doc string or not, so that what is left is told by raw lines and not by items.
-/

namespace FeatureFile

open Ahead
open Opening (kindBehindTags skipJunk endsJunk takeHeading anchorOf)

namespace Line

lemma isWhole_of_significant? {l : RawLine} {found : Line} {inside : Bool} (closed : l.IsClosed)
    (shape : Lexeme.Shape inside l.shape) (here : l.significant? = some found) : found.IsWhole where
  content := isTrivia_of_significant? here
  inline := by
    have sub : found.head :: found.tail ⊆ l.body := by
      rw [← dropWhile_of_significant? here, ← l.dropWhile_body]
      exact (List.dropWhile_suffix _).subset
    intro t ht
    have inline := shape.inline t.kind (List.mem_map_of_mem (sub ht))
    simp [Reader.isInline, inline]
  closed t ht := closed.ending t (ending_of_significant? here ▸ ht)

lemma stop_eq (l : Line) : ∃ t ∈ l.tokens.getLast?, t.stop = l.stop := by
  obtain ⟨head, tail, _ | eol⟩ := l
  · exact ⟨tail.getLast?.getD head, by simp [tokens, List.getLast?_cons], rfl⟩
  · exact ⟨eol, List.getLast?_concat, rfl⟩

end Line

structure Spans (eof : Token) (left : List Token) (ls : List RawLine) : Prop where
  last : eof.kind = .eof
  scanned : ∃ inside, Scanned inside ls
  chain : ls.IsChain fun l _ => l.ending ≠ none
  lines : left.dropWhile (·.kind.isTrivia) =
    (ls.flatMap RawLine.tokens ++ [eof]).dropWhile (·.kind.isTrivia)

namespace Spans

variable {eof : Token} {left : List Token} {l : RawLine} {ls : List RawLine}

lemma of_cons_blank (h : Spans eof left (l :: ls)) (blank : l.significant? = none) :
    Spans eof left ls := by
  obtain ⟨last, ⟨inside, scanned⟩, chain, lines⟩ := h
  refine ⟨last, ⟨inside, ?_⟩, (List.isChain_cons.mp chain).2, lines.trans ?_⟩
  · exact scanned.rest_of_stays (RawLine.turns_of_significant?_none blank)
  · rw [List.flatMap_cons, List.append_assoc,
      List.dropWhile_append_of_pos (RawLine.isTrivia_of_blank scanned.isClosed blank)]

lemma of_cons {found : Line} (h : Spans eof left (l :: ls)) (here : l.significant? = some found) :
    ∃ more, left.dropWhile (·.kind.isTrivia) = found.tokens ++ more ∧ found.IsWhole ∧
      (found.ending = none → more = [eof]) ∧ Spans eof more ls := by
  obtain ⟨last, ⟨inside, scanned⟩, chain, lines⟩ := h
  obtain _ | ⟨closed, shape, below⟩ := scanned
  refine ⟨ls.flatMap RawLine.tokens ++ [eof], ?_, Line.isWhole_of_significant? closed shape here,
    fun ends => ?_, last, ⟨_, below⟩, (List.isChain_cons.mp chain).2, rfl⟩
  · rw [lines, List.flatMap_cons, List.append_assoc]
    exact RawLine.dropWhile_tokens _ here
  · cases ls with
    | nil => rfl
    | cons m ls =>
      exact absurd (Line.ending_of_significant? here ▸ ends) ((List.isChain_cons.mp chain).1 m rfl)

lemma eq_of_nil (h : Spans eof left []) : left.dropWhile (·.kind.isTrivia) = [eof] := by
  have final : eof.kind.isTrivia = false := by
    rw [h.last]
    rfl
  simpa [final] using h.lines

lemma dropWhile (h : Spans eof left ls) : Spans eof (left.dropWhile (·.kind.isTrivia)) ls :=
  { h with lines := (List.dropWhile_idempotent _ _).trans h.lines }

lemma holds (h : Spans eof left ls) (plain : Scanned false ls) :
    Holds eof left (Item.ofLines none ls) :=
  (Item.holds_ofLines h.last none plain h.chain (by simp)).of_dropWhile h.lines

lemma peekBehindTags (h : Spans eof left ls) : peekBehindTags left = kindBehindTags ls := by
  induction ls generalizing left with
  | nil =>
    rw [← peekBehindTags_dropWhile, h.eq_of_nil]
    simp [Ahead.peekBehindTags, kindOffTags, kindBehindTags, h.last, TokenKind.isTrivia]
  | cons l ls ih =>
    cases here : l.significant? with
    | none => rw [Opening.kindBehindTags_cons_none ls here, ih (h.of_cons_blank here)]
    | some found =>
      obtain ⟨more, lines, whole, ends, below⟩ := h.of_cons here
      rw [Opening.kindBehindTags_cons_some ls here, ← peekBehindTags_dropWhile, lines,
        whole.peekBehindTags fun none => ⟨eof, ends none, h.last⟩, ih below]

lemma significant? (h : Spans eof left ls) :
    significant? left = some (Opening.firstToken eof ls) := by
  rw [significant?_eq]
  induction ls generalizing left with
  | nil =>
    rw [h.eq_of_nil]
    rfl
  | cons l ls ih =>
    rw [Opening.firstToken, List.findSome?_cons]
    cases here : l.significant? with
    | none => exact ih (h.of_cons_blank here)
    | some found =>
      obtain ⟨more, lines, -⟩ := h.of_cons here
      rw [lines]
      rfl

end Spans

namespace Reader

variable {eof : Token} {left : List Token} {ls : List RawLine}

structure SkipsJunk (eof : Token) (left : List Token) (ls : List RawLine)
    (read : List (Option Line) × List Token) : Prop where
  junk : read.1 = (skipJunk ls).1.map some
  rest : Spans eof read.2 (skipJunk ls).2
  stays : (skipJunk ls).1 = [] → read.2 = left
  behind : ∀ l ∈ (skipJunk ls).1.getLast?, ∃ front, left = front ++ (l.tokens ++ read.2)

lemma SkipsJunk.cons {read : List (Option Line) × List Token} {more : List Token} {l : RawLine}
    {found : Line} (skipped : SkipsJunk eof more ls read)
    (lines : left.dropWhile (·.kind.isTrivia) = found.tokens ++ more)
    (same : skipJunk (l :: ls) = (found :: (skipJunk ls).1, (skipJunk ls).2)) :
    SkipsJunk eof left (l :: ls) (some found :: read.1, read.2) := by
  refine ⟨?_, ?_, ?_, ?_⟩ <;> rw [same]
  · rw [skipped.junk]
    rfl
  · exact skipped.rest
  · intro none
    cases none
  · have cut : left = left.takeWhile (·.kind.isTrivia) ++ (found.tokens ++ more) := by
      rw [← lines, List.takeWhile_append_dropWhile]
    intro l hl
    rw [List.getLast?_cons] at hl
    cases deeper : (skipJunk ls).1.getLast? with
    | none =>
      rw [deeper] at hl
      obtain rfl : found = l := Option.some.inj hl
      rw [skipped.stays (List.getLast?_eq_none_iff.mp deeper)]
      exact ⟨_, cut⟩
    | some l' =>
      rw [deeper] at hl
      obtain rfl : l' = l := Option.some.inj hl
      obtain ⟨front, behind⟩ := skipped.behind l' deeper
      refine ⟨left.takeWhile (·.kind.isTrivia) ++ (found.tokens ++ front), ?_⟩
      rw [List.append_assoc, List.append_assoc, ← behind]
      exact cut

lemma skipsJunk (h : Spans eof left ls) : SkipsJunk eof left ls (junk.run.read left) := by
  change SkipsJunk eof left ls (junk.readAll left)
  have goes {left : List Token} {ls : List RawLine} (h : Spans eof left ls) :
      junk.goes left = !endsJunk (kindBehindTags ls) := by
    rw [← h.peekBehindTags]
    rfl
  induction ls generalizing left with
  | nil =>
    rw [junk.readAll_of_stops (goes h)]
    exact ⟨rfl, h, fun _ => rfl, by simp [skipJunk]⟩
  | cons l ls ih =>
    cases here : l.significant? with
    | none =>
      have skipped := ih (h.of_cons_blank here)
      have same := Opening.skipJunk_cons_none ls here
      exact ⟨same ▸ skipped.junk, same ▸ skipped.rest, same ▸ skipped.stays, same ▸ skipped.behind⟩
    | some found =>
      cases ends : endsJunk (kindBehindTags (l :: ls)) with
      | true =>
        have same : skipJunk (l :: ls) = ([], l :: ls) := by simp [skipJunk, here, ends]
        rw [junk.readAll_of_stops (by rw [goes h, ends]; rfl)]
        refine ⟨?_, ?_, ?_, ?_⟩ <;> rw [same]
        · rfl
        · exact h
        · exact fun _ => rfl
        · simp
      | false =>
        obtain ⟨more, lines, whole, last, below⟩ := h.of_cons here
        have same : skipJunk (l :: ls) = (found :: (skipJunk ls).1, (skipJunk ls).2) := by
          simp [skipJunk, here, ends]
        have read : junk.body.read left = (some found, more) := by
          change nextLine.read left = _
          rw [nextLine, read_afterTrivia, lines, read_line whole fun none => by
            rw [last none]; exact h.last]
        rw [junk.readAll_of_goes (by rw [goes h, ends]; rfl), read]
        exact (ih below).cons lines same

lemma SkipsJunk.place {read : List (Option Line) × List Token} (h : SkipsJunk eof left ls read)
    (chain : left.IsChain fun a b => b.start = a.stop)
    (first : left.dropWhile (·.kind.isTrivia) = left) {items : List Item}
    (held : Holds eof read.2 items) :
    place read.2 = anchorOf eof.start (skipJunk ls).1 items := by
  rw [anchorOf]
  cases last : (skipJunk ls).1.getLast? with
  | none =>
    have same := h.stays (List.getLast?_eq_none_iff.mp last)
    have start := held.place
    rw [same, first] at start
    rw [same]
    exact start
  | some l =>
    obtain ⟨front, cut⟩ := h.behind l last
    obtain ⟨t, final, stop⟩ := l.stop_eq
    rw [cut, List.isChain_append, List.isChain_append] at chain
    have next := chain.2.1.2.2 t final
    have more := h.rest.significant?
    cases left : read.2 with
    | nil =>
      rw [left] at more
      cases more
    | cons u rest =>
      rw [left] at next
      exact (next u rfl).trans stop

lemma gives_takeHeading (items : List Item) :
    (onlyIf (peekBehindTags · = .header .feature) heading).Gives eof items (takeHeading items).1
      (takeHeading items).2 := by
  refine .of_isLexed fun lexed => ?_
  rw [takeHeading]
  cases found : Heading.take? items with
  | none =>
    refine gives_onlyIf_not _ fun left here => decide_eq_false ?_
    rw [here.peekBehindTags]
    intro feature
    obtain ⟨h, below, some, -⟩ := Heading.exists_take? lexed (by rw [feature]; rfl)
    rw [found] at some
    cases some
  | some taken =>
    obtain ⟨h, below⟩ := taken
    have ahead := Heading.kindOffTags_of_take? found
    dsimp only
    split
    next feature =>
      refine gives_onlyIf (fun left here => decide_eq_true ?_) (gives_heading found)
      rw [here.peekBehindTags, ahead]
      exact feature
    next other =>
      refine gives_onlyIf_not _ fun left here => decide_eq_false ?_
      rw [here.peekBehindTags, ahead]
      exact other

theorem read_opening_of_spans (h : Spans eof left ls) (scanned : Scanned false ls)
    (chain : left.IsChain fun a b => b.start = a.stop) :
    (opening.read left).1 = (Opening.take eof ls).1 ∧
      Holds eof (opening.read left).2 (Opening.take eof ls).2 := by
  have first := h.dropWhile
  have junk := skipsJunk first
  have plain : Scanned false (skipJunk ls).2 := by
    rcases Opening.scanned_skipJunk scanned none rfl with none | ⟨below, -⟩
    · rw [none]
      exact .nil _
    · exact below
  have held := junk.rest.holds plain
  have anchor := junk.place (chain.suffix (List.dropWhile_suffix _))
    (List.dropWhile_idempotent _ _) held
  obtain ⟨heading, behind⟩ := gives_takeHeading _ _ held
  have missing : missing? (left.dropWhile (·.kind.isTrivia)) = Opening.missing? eof ls := by
    rw [missing?, first.peekBehindTags, first.significant?]
    rfl
  rw [opening, read_afterTrivia]
  simp only [read_bind, read_ask, read_pure]
  rw [missing, anchor, heading, junk.junk, reduceOption_map_some]
  exact ⟨rfl, behind⟩

end Reader

end FeatureFile
