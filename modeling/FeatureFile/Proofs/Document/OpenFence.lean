import FeatureFile.Proofs.Document.Body
import FeatureFile.Proofs.Tree.Complete

/-!
The doc string that is still open at the end. The scanner has it in its mode, which the fences among
the tokens tell, the items have it by the lines that open and close a doc string; on scanned lines
both find the same one.
-/

namespace FeatureFile

lemma fenceBehind_filter (found : Option Token) (ts : List Token) :
    fenceBehind found (ts.filter (!·.kind.isTrivia)) = fenceBehind found ts := by
  induction ts generalizing found with
  | nil => rfl
  | cons t ts ih =>
    cases trivia : t.kind.isTrivia with
    | false => simpa [fenceBehind, trivia] using ih _
    | true =>
      have unfenced : t.kind ≠ .fence := by
        intro fence
        simp [fence, TokenKind.isTrivia] at trivia
      simpa [fenceBehind, trivia, unfenced] using ih found

lemma Keeps.fenceBehind_eq {kept all : List Token} (h : Keeps kept all) (found : Option Token) :
    fenceBehind found kept = fenceBehind found all := by
  rw [← fenceBehind_filter found kept, h.significant, fenceBehind_filter]

lemma RawLine.fenceBehind_tokens {l : RawLine} {inside : Bool} (closed : l.IsClosed)
    (shape : Lexeme.Shape inside l.shape) (found : Option Token) :
    fenceBehind found l.tokens =
      if l.turns then (if found.isSome then none else l.body.head?) else found := by
  have pads : ∀ t ∈ l.content.takeWhile (·.kind.isPad), t.kind ≠ .fence := by
    intro t ht fence
    have := List.mem_takeWhile_imp (p := fun t : Token => t.kind.isPad) ht
    simp [fence, TokenKind.isPad] at this
  have ending : ∀ t ∈ l.ending.toList, t.kind ≠ .fence := by
    intro t ht
    simp [closed.ending t (by simpa using ht)]
  have cut : l.tokens = l.content.takeWhile (·.kind.isPad) ++ (l.body ++ l.ending.toList) := by
    rw [tokens, ← List.append_assoc, ← content_eq]
  rw [cut, fenceBehind_append, fenceBehind_of_unfenced pads]
  cases body : l.body with
  | nil => simpa [turns, RawLine.shape, body] using fenceBehind_of_unfenced ending found
  | cons t rest =>
    have others : ∀ u ∈ rest ++ l.ending.toList, u.kind ≠ .fence := by
      refine List.forall_mem_append.mpr ⟨fun u hu => ?_, ending⟩
      rw [RawLine.shape, body, List.map_cons] at shape
      exact shape.unfenced _ (List.mem_map_of_mem hu)
    rw [List.cons_append]
    by_cases fence : t.kind = .fence
    · rw [fenceBehind_cons_fence fence, fenceBehind_of_unfenced others]
      simp [turns, RawLine.shape, body, fence]
    · rw [fenceBehind_of_unfenced (List.forall_mem_cons.mpr ⟨fence, others⟩)]
      simp [turns, RawLine.shape, body, fence]

lemma Scanned.fenceBehind_cons {inside : Bool} {l : RawLine} {rest : List RawLine}
    (scanned : Scanned inside (l :: rest)) (found : Option Token) :
    fenceBehind found ((l :: rest).flatMap RawLine.tokens) =
      fenceBehind (if l.turns then (if found.isSome then none else l.body.head?) else found)
        (rest.flatMap RawLine.tokens) := by
  rw [List.flatMap_cons, fenceBehind_append,
    RawLine.fenceBehind_tokens scanned.isClosed scanned.shape]

def Item.LeavesOpen (items : List Item) (t : Token) : Prop :=
  ∃ b, .block b ∈ items ∧ b.closing = none ∧ b.opening.head = t

namespace Item

lemma leavesOpen_nil (t : Token) : ¬ LeavesOpen [] t := by
  simp [LeavesOpen]

lemma leavesOpen_cons_line {l : Line} {items : List Item} {t : Token} :
    LeavesOpen (line l :: items) t ↔ LeavesOpen items t := by
  simp [LeavesOpen]

lemma leavesOpen_cons_closed {b : Block} {items : List Item} {t : Token}
    (closed : b.closing ≠ none) :
    LeavesOpen (block b :: items) t ↔ LeavesOpen items t := by
  constructor
  · rintro ⟨b', hb, stays, head⟩
    rcases List.mem_cons.mp hb with same | hb
    · exact absurd (block.inj same ▸ stays) closed
    · exact ⟨b', hb, stays, head⟩
  · rintro ⟨b', hb, stays, head⟩
    exact ⟨b', List.mem_cons_of_mem _ hb, stays, head⟩

lemma leavesOpen_behindFence {more : List Token} {ending : Option Token} {items : List Item}
    {t : Token} :
    LeavesOpen (behindFence more ending ++ items) t ↔ LeavesOpen items t := by
  rw [behindFence]
  split
  · rfl
  · exact leavesOpen_cons_line

theorem leavesOpen_ofLines (opened : Option (Line × List Token)) {ls : List RawLine}
    (scanned : Scanned opened.isSome ls) (t : Token) :
    LeavesOpen (ofLines opened ls) t ↔
      fenceBehind (opened.map (·.1.head)) (ls.flatMap RawLine.tokens) = some t := by
  -- In each case the line turns if and only if the items open or close a doc string there.
  fun_induction ofLines opened ls with
  | case1 => simpa [fenceBehind] using leavesOpen_nil t
  | case2 opening content => simp [LeavesOpen, fenceBehind]
  | case3 l rest blank ih =>
    have stays := RawLine.turns_of_significant?_none blank
    rw [ih (scanned.rest_of_stays stays), scanned.fenceBehind_cons]
    simp [stays]
  | case4 l rest found here fence ih =>
    have turns := (scanned.turns_iff here).mpr fence
    rw [ih (scanned.rest_of_turns turns), scanned.fenceBehind_cons]
    simp [turns, RawLine.body_of_significant? scanned.shape here]
  | case5 l rest found here other ih =>
    have stays := scanned.stays here other
    rw [leavesOpen_cons_line, ih (scanned.rest_of_stays stays), scanned.fenceBehind_cons]
    simp [stays]
  | case6 opening content l rest inner ih =>
    have stays := RawLine.turns_of_closing?_none inner
    rw [ih (scanned.rest_of_stays stays), scanned.fenceBehind_cons]
    simp [stays]
  | case7 opening content l rest indent fence more here ih =>
    have turns := RawLine.turns_of_closing? here
    rw [leavesOpen_cons_closed (by simp), leavesOpen_behindFence, ih (scanned.rest_of_turns turns),
      scanned.fenceBehind_cons]
    simp [turns]

end Item

namespace Opening

lemma kindBehindTags_cons_none {l : RawLine} (rest : List RawLine) (h : l.significant? = none) :
    kindBehindTags (l :: rest) = kindBehindTags rest := by
  rw [kindBehindTags, h]

lemma kindBehindTags_cons_some {l : RawLine} (rest : List RawLine) {found : Line}
    (h : l.significant? = some found) :
    kindBehindTags (l :: rest) =
      if found.kind = .atSign then kindBehindTags rest else found.kind := by
  rw [kindBehindTags, h]

lemma skipJunk_of_feature {ls : List RawLine} (h : kindBehindTags ls = .header .feature) :
    (skipJunk ls).1 = [] := by
  fun_induction skipJunk ls with
  | case1 => rfl
  | case2 l rest blank ih => exact ih (kindBehindTags_cons_none rest blank ▸ h)
  | case3 => rfl
  | case4 l rest found here goes ih =>
      simp [h, endsJunk, TokenKind.isHeader, TokenKind.isExamples] at goes

lemma scanned_skipJunk {inside : Bool} {ls : List RawLine} (scanned : Scanned inside ls)
    (opened : Option Token)
    (agrees : opened.isSome = inside) :
    (skipJunk ls).2 = [] ∨
      (Scanned false (skipJunk ls).2 ∧
      fenceBehind opened ((skipJunk ls).1.flatMap Line.tokens) = none) := by
  fun_induction skipJunk ls generalizing inside opened with
  | case1 => exact .inl rfl
  | case2 l rest blank ih =>
    exact ih (scanned.rest_of_stays (RawLine.turns_of_significant?_none blank)) _ agrees
  | case3 l rest found here ends =>
    right
    cases inside with
    | false => exact ⟨scanned, by simpa [fenceBehind] using agrees⟩
    | true =>
      -- Nothing in a doc string looks like a header, so what is skipped does not end in one.
      rw [kindBehindTags_cons_some rest here] at ends
      rcases RawLine.kind_of_significant? scanned.shape here with kind | kind <;>
        simp [kind, endsJunk, TokenKind.isHeader] at ends
  | case4 l rest found here goes ih =>
    obtain _ | ⟨closed, shape, below⟩ := scanned
    have behind : (fenceBehind opened found.tokens).isSome =
        if l.turns then !inside else inside := by
      rw [(Line.keeps_of_significant? here).fenceBehind_eq,
        RawLine.fenceBehind_tokens closed shape, ← agrees]
      by_cases turns : l.turns
      · obtain ⟨t, more, body, -⟩ := RawLine.body_of_turns turns
        cases opened <;> simp [turns, body]
      · simp [turns]
    simpa [fenceBehind_append] using ih below _ behind

end Opening

namespace Feature

/-- A doc string that the document leaves open, among its items or in what is skipped in front of
them, by the token that opens it. -/
def LeavesOpen (f : Feature) (t : Token) : Prop :=
  Item.LeavesOpen f.items t ∨ openFence (f.opening.junk.flatMap Line.tokens) = some t

theorem leavesOpen_ofLines (eof : Token) {ls : List RawLine} (scanned : Scanned false ls)
    (closed : ∀ l ∈ ls, l.IsClosed) (t : Token) :
    (ofLines eof ls).LeavesOpen t ↔ openFence (ls.flatMap RawLine.tokens) = some t := by
  have junk : (ofLines eof ls).opening.junk = (Opening.skipJunk ls).1 := rfl
  rw [LeavesOpen, items_ofLines, junk, openFence_eq, openFence_eq,
    ← (Opening.keeps_skipJunk closed).fenceBehind_eq, fenceBehind_append]
  rcases Opening.scanned_skipJunk scanned none rfl with none | ⟨below, skipped⟩
  · simp [none, fenceBehind, Item.ofLines, Item.LeavesOpen]
  · simp [skipped, Item.leavesOpen_ofLines none below]

end Feature

end FeatureFile
