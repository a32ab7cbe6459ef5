import FeatureFile.Proofs.Document.Seam
import FeatureFile.Proofs.Grammar.Accepts

/-!
The scenarios of a document do not depend on what stands around them. Whatever a document makes of
the other lines, it has the scenarios that reading its items one after the other would find.
-/

namespace FeatureFile

open Item (IsSealed IsSeam startOf)
open Opening (kindBehindTags skipJunk endsJunk)

lemma Steps.isBody_of_mem_items_take (anchor : Mark) (items : List Item) :
    ∀ i ∈ (take anchor items).1.items, i.kind.isBody := by
  rw [take, Steps.items, items_entriesOf]
  exact fun _ hi => List.mem_takeWhile_imp (p := fun i : Item => i.kind.isBody) hi

lemma Background.isBody_of_mem_take (eof : Mark) (items : List Item) :
    ∀ b ∈ (take eof items).1, ∀ i ∈ b.steps.items, i.kind.isBody := by
  rw [take.eq_def]
  split
  · split
    · simpa using Steps.isBody_of_mem_items_take _ _
    · simp
  · simp

namespace Scenarios

def membersOf (eof : Mark) (items : List Item) : List Scenario :=
  (ofItems eof items).members

variable {eof : Mark} {items rest : List Item}

@[simp] lemma membersOf_nil : membersOf eof [] = [] := by
  simp [membersOf, ofItems, members, entriesOf]

lemma membersOf_append (seam : IsSeam rest) (last : IsSealed items) :
    membersOf eof (items ++ rest) = membersOf (startOf eof rest) items ++ membersOf eof rest := by
  simp [membersOf, ofItems, members, seam.entriesOf eof last]

lemma membersOf_cons {i : Item} (other : ∀ k ∈ Heading.kind? (i :: items), k.isScenario = false) :
    membersOf eof (i :: items) = membersOf eof items := by
  have none : Scenario.take? eof (i :: items) = none := by
    rw [Option.eq_none_iff_forall_not_mem]
    rintro ⟨s, below⟩ here
    obtain ⟨h, text, heading, kind, -⟩ := Heading.takeSection_eq_some.mp here
    have first := Heading.kind?_eq (i :: items)
    rw [heading, Option.map_some] at first
    simp [other _ first] at kind
  rw [membersOf, ofItems, members, entriesOf_of_none none, List.filterMap_cons_none rfl]
  rfl

lemma membersOf_append_of_isBody (body : ∀ i ∈ items, i.kind.isBody) (rest : List Item) :
    membersOf eof (items ++ rest) = membersOf eof rest := by
  induction items with
  | nil => rfl
  | cons i items ih =>
    obtain ⟨first, others⟩ := List.forall_mem_cons.mp body
    have none : Heading.kind? (i :: (items ++ rest)) = none := by
      cases i with
      | block b => rfl
      | line l =>
        change l.kind.isBody = true at first
        have tags : l.kind ≠ .atSign := by
          intro tags
          simp [tags, TokenKind.isBody] at first
        simp [Heading.kind?, tags, TokenKind.isHeader_of_isBody first]
    rw [List.cons_append, membersOf_cons (by simp [none]), ih others]

lemma membersOf_append_of_isFormed {h : Heading} (formed : h.IsFormed)
    (other : h.kind.isScenario = false) (rest : List Item) :
    membersOf eof (h.items ++ rest) = membersOf eof rest := by
  obtain ⟨tags, l, ls⟩ := h
  change l.kind.isScenario = false at other
  induction tags with
  | nil =>
    have text : ∀ i ∈ ls.map Item.line, i.kind.isBody := by
      intro i hi
      obtain ⟨l', hl, rfl⟩ := List.mem_map.mp hi
      have prose : l'.kind.isProse := formed.description l' hl
      exact TokenKind.isBody_of_isProse prose
    have kind : Heading.kind? (.line l :: (ls.map .line ++ rest)) = some l.kind :=
      formed.kind?_append
    change membersOf eof (.line l :: (ls.map .line ++ rest)) = _
    rw [membersOf_cons (by simp [kind, other]), membersOf_append_of_isBody text]
  | cons t tags ih =>
    have below : Heading.IsFormed ⟨tags, l, ls⟩ :=
      ⟨(List.forall_mem_cons.mp formed.tags).2, formed.header, formed.description⟩
    have kind : Heading.kind? (.line t :: (Heading.items ⟨tags, l, ls⟩ ++ rest)) = some l.kind :=
      formed.kind?_append
    change membersOf eof (.line t :: (Heading.items ⟨tags, l, ls⟩ ++ rest)) = _
    rw [membersOf_cons (by simp [kind, other]), ih below]

lemma membersOf_background (eof : Mark) (items : List Item) :
    membersOf eof (Background.take eof items).2 = membersOf eof items := by
  have whole := Background.items_take eof items
  cases taken : (Background.take eof items).1 with
  | none =>
    rw [taken] at whole
    exact congrArg (membersOf eof) whole
  | some b =>
    rw [taken, Option.toList_some, List.flatMap_singleton, Background.items,
      List.append_assoc] at whole
    have formed := Background.isFormed_of_mem_take eof items b taken
    have body := Background.isBody_of_mem_take eof items b taken
    conv_rhs => rw [← whole]
    rw [membersOf_append_of_isFormed formed.heading (by rw [formed.kind]; rfl),
      membersOf_append_of_isBody body]

end Scenarios

namespace BusinessRule

variable {eof : Mark} {items rest : List Item}

lemma isSeam_of_startsAt (h : rest = [] ∨ startsAt rest) : IsSeam rest :=
  h.imp_right fun start => ⟨_, startsAt_iff.mp start, rfl⟩

lemma isSealed_untilNext (items : List Item) (more : startsAt (untilNext items).2) :
    IsSealed (untilNext items).1 := by
  induction items with
  | nil => simp [untilNext, IsSealed]
  | cons i items ih =>
    by_cases start : startsAt (i :: items)
    · simp [untilNext, start, IsSealed]
    · simp only [untilNext, start, Bool.false_eq_true, if_false] at more ⊢
      intro j hj l same sign
      cases own : (untilNext items).1 with
      | nil =>
        -- A tag line right in front of the rule would be a tag of it.
        have whole := append_untilNext items
        rw [own, List.nil_append] at whole
        rw [own, List.getLast?_singleton] at hj
        obtain rfl : i = .line l := (Option.some.inj hj).trans same
        rw [startsAt_iff, Heading.kind?, if_pos sign, ← startsAt_iff, ← whole] at start
        exact start more
      | cons k own' =>
        refine ih more j ?_ l same sign
        rwa [own, List.getLast?_cons_cons, ← own] at hj

lemma membersOf_untilNext (eof : Mark) (items : List Item) :
    Scenarios.membersOf eof items =
      Scenarios.membersOf (startOf eof (untilNext items).2) (untilNext items).1 ++
        Scenarios.membersOf eof (untilNext items).2 := by
  conv_lhs => rw [← append_untilNext items]
  rcases startsAt_untilNext items with none | more
  · simp [none, startOf]
  · exact Scenarios.membersOf_append (isSeam_of_startsAt (.inr more)) (isSealed_untilNext _ more)

lemma membersOf_of_take? {r : BusinessRule} (found : take? eof items = some (r, rest)) :
    Scenarios.membersOf eof items = r.scenarios.members ++ Scenarios.membersOf eof rest := by
  obtain ⟨h, below, heading, kind, whole⟩ := Heading.takeSection_eq_some.mp found
  obtain ⟨rfl, rfl⟩ := Prod.mk.inj whole
  rw [← Heading.items_of_take? heading, Scenarios.membersOf_append_of_isFormed
    (Heading.isFormed_of_take? heading) (by rw [of_decide_eq_true kind]; rfl), ← Scenarios.membersOf_background]
  exact membersOf_untilNext eof (Background.take eof below).2

lemma members_entriesOf (eof : Mark) {items : List Item} (start : items = [] ∨ startsAt items) :
    (Content.rules (entriesOf eof items)).members = Scenarios.membersOf eof items := by
  refine row_induction eof (motive := fun items => (Content.rules (entriesOf eof items)).members =
    Scenarios.membersOf eof items) (by simp [entriesOf, Content.members])
    (fun items r rest found ih => ?_) start
  rw [entriesOf_of_some found, membersOf_of_take? found, ← ih]
  rfl

end BusinessRule

lemma Content.members_ofItems (eof : Mark) (items : List Item) :
    (ofItems eof items).members = Scenarios.membersOf eof items := by
  rw [ofItems]
  split
  case isTrue start => exact BusinessRule.members_entriesOf eof (.inr start)
  case isFalse => rfl

namespace Opening

lemma membersOf_takeHeading (eof : Mark) (items : List Item) :
    Scenarios.membersOf eof (takeHeading items).2 = Scenarios.membersOf eof items := by
  rw [takeHeading]
  split
  case h_2 => rfl
  case h_1 h below found =>
    split
    case isFalse => rfl
    case isTrue kind =>
      conv_rhs => rw [← Heading.items_of_take? found]
      exact (Scenarios.membersOf_append_of_isFormed (Heading.isFormed_of_take? found)
        (by rw [kind]; rfl) below).symm

lemma skipJunk_cons_none {l : RawLine} (rest : List RawLine) (h : l.significant? = none) :
    skipJunk (l :: rest) = skipJunk rest := by
  rw [skipJunk, h]

lemma skipJunk_cons_some {l : RawLine} (rest : List RawLine) {found : Line}
    (h : l.significant? = some found) :
    (skipJunk (l :: rest)).2 =
      if endsJunk (kindBehindTags (l :: rest)) then l :: rest else (skipJunk rest).2 := by
  rw [skipJunk, h]
  dsimp only
  split <;> rfl

lemma skipJunk_cons_fenced {l : RawLine} (rest : List RawLine)
    (shape : Lexeme.FencedShape l.shape) : (skipJunk (l :: rest)).2 = (skipJunk rest).2 := by
  cases here : l.significant? with
  | none => rw [skipJunk_cons_none rest here]
  | some found =>
    have goes : endsJunk (kindBehindTags (l :: rest)) = false := by
      rw [kindBehindTags_cons_some rest here]
      rcases RawLine.kind_of_significant? shape here with kind | kind <;> rw [kind] <;> rfl
    rw [skipJunk_cons_some rest here, goes]
    rfl

lemma isScenario_of_not_endsJunk {ls : List RawLine} (goes : endsJunk (kindBehindTags ls) = false) :
    ∀ k ∈ Heading.kind? (Item.ofLines none ls), k.isScenario = false := by
  intro k hk
  rw [Bool.eq_false_iff]
  intro scenario
  cases k with
  | header word =>
    rw [(kind?_ofLines word ls).mp hk] at goes
    cases word <;> revert scenario goes <;> decide
  | _ => cases scenario

lemma membersOf_skipJunk (eof : Mark) (opened : Option (Line × List Token)) {ls : List RawLine}
    (scanned : Scanned opened.isSome ls) :
    Scenarios.membersOf eof (Item.ofLines none (skipJunk ls).2) =
      Scenarios.membersOf eof (Item.ofLines opened ls) := by
  have block (b : Block) (items : List Item) :
      Scenarios.membersOf eof (.block b :: items) = Scenarios.membersOf eof items :=
    Scenarios.membersOf_cons (by simp [Heading.kind?])
  fun_induction Item.ofLines opened ls with
  | case1 => rfl
  | case2 opening content => exact (block _ []).symm
  | case3 l rest blank ih =>
    rw [skipJunk_cons_none rest blank]
    exact ih (scanned.rest_of_stays (RawLine.turns_of_significant?_none blank))
  | case4 l rest found here fence ih =>
    have goes : endsJunk (kindBehindTags (l :: rest)) = false := by
      rw [kindBehindTags_cons_some rest here, fence]
      rfl
    rw [skipJunk_cons_some rest here, goes]
    exact ih (scanned.rest_of_turns ((scanned.turns_iff here).mpr fence))
  | case5 l rest found here other ih =>
    have items := Item.ofLines_cons_line rest here other
    rw [skipJunk_cons_some rest here]
    split
    case isTrue => rw [items]
    case isFalse goes =>
      have plain := isScenario_of_not_endsJunk (Bool.eq_false_iff.mpr goes)
      rw [items] at plain
      rw [Scenarios.membersOf_cons plain]
      exact ih (scanned.rest_of_stays (scanned.stays here other))
  | case6 opening content l rest inner ih =>
    -- Nothing in a doc string looks like a header, so that junk does not end there.
    rw [skipJunk_cons_fenced rest scanned.shape]
    exact ih (scanned.rest_of_stays (RawLine.turns_of_closing?_none inner))
  | case7 opening content l rest indent fence more here ih =>
    rw [skipJunk_cons_fenced rest scanned.shape, block,
      ih (scanned.rest_of_turns (RawLine.turns_of_closing? here))]
    exact (Scenarios.membersOf_append_of_isBody
      (Item.isBody_of_mem_behindFence (Item.isFree_of_closing? scanned.shape here)) _).symm

end Opening

theorem Feature.members_ofLines (eof : Token) {ls : List RawLine} (scanned : Scanned false ls) :
    (ofLines eof ls).content.members = Scenarios.membersOf eof.start (Item.ofLines none ls) := by
  simp only [ofLines, Opening.take, Content.members_ofItems, Scenarios.membersOf_background,
    Opening.membersOf_takeHeading]
  exact Opening.membersOf_skipJunk eof.start none scanned

end FeatureFile
