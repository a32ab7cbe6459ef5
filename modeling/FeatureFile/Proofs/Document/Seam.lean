import FeatureFile.Proofs.Document.Headers
import FeatureFile.Proofs.Grammar.Follow

/-!
Items behind other items. Where a section begins that is no part of the one before it, reading stops
and begins anew: what is read in front of such a seam does not depend on what comes behind it, apart
from where that begins.
-/

namespace FeatureFile

open Grammar

lemma TokenKind.isBody_of_isProse {k : TokenKind} (h : k.isProse) : k.isBody := by
  cases k <;> first | rfl | cases h

namespace Item

def IsSealed (items : List Item) : Prop :=
  ∀ i ∈ items.getLast?, ∀ l, i = line l → l.kind ≠ .atSign

lemma IsSealed.of_append {front items : List Item} (h : IsSealed (front ++ items)) :
    IsSealed items := by
  intro i hi
  refine h i ?_
  rw [Option.mem_def] at hi ⊢
  rw [List.getLast?_append, hi, Option.some_or]

lemma IsSealed.tail {i : Item} {items : List Item} (h : IsSealed (i :: items)) : IsSealed items :=
  of_append (show IsSealed ([i] ++ items) from h)

lemma startOf_append (eof : Mark) (items rest : List Item) :
    startOf eof (items ++ rest) = startOf (startOf eof rest) items := by
  cases items <;> rfl

variable {wanted : TokenKind → Bool} {rest : List Item}

lemma takeLines_append_of_stop
    (stop : ∀ l below, rest = line l :: below → wanted l.kind = false) (items : List Item) :
    takeLines wanted (items ++ rest) =
      ((takeLines wanted items).1, (takeLines wanted items).2 ++ rest) := by
  induction items with
  | nil => exact takeLines_append (List.forall_mem_nil _) stop
  | cons i items ih =>
    cases i with
    | block b => rfl
    | line l => by_cases more : wanted l.kind <;> simp [takeLines, more, ih]

lemma takeLines_append_of_ne_nil {items : List Item} (left : (takeLines wanted items).2 ≠ []) :
    takeLines wanted (items ++ rest) =
      ((takeLines wanted items).1, (takeLines wanted items).2 ++ rest) := by
  induction items with
  | nil => exact absurd rfl left
  | cons i items ih =>
    cases i with
    | block b => rfl
    | line l =>
      by_cases more : wanted l.kind
      · simp only [takeLines, more, if_true] at left
        simp [takeLines, more, ih left]
      · simp [takeLines, more]

end Item

namespace Heading

lemma kind?_append {items : List Item} (some : items ≠ []) (last : Item.IsSealed items)
    (rest : List Item) : kind? (items ++ rest) = kind? items := by
  induction items with
  | nil => exact absurd rfl some
  | cons i items ih =>
    cases i with
    | block b => rfl
    | line l =>
      rw [List.cons_append, kind?, kind?]
      by_cases tags : l.kind = .atSign
      · rw [if_pos tags, if_pos tags]
        refine ih (fun none => ?_) last.tail
        subst none
        exact last _ rfl l rfl tags
      · rw [if_neg tags, if_neg tags]

lemma take?_eq_none {items : List Item} : take? items = none ↔ kind? items = none := by
  rw [kind?_eq, Option.map_eq_none_iff]

end Heading

def Item.IsSeam (rest : List Item) : Prop :=
  rest = [] ∨ ∃ k, Heading.kind? rest = some k ∧ k.isExamples = false

namespace Item.IsSeam

variable {rest : List Item}

lemma isBody (seam : IsSeam rest) : ∀ i ∈ rest.head?, i.kind.isBody = false := by
  rcases seam with rfl | ⟨k, here, -⟩
  · simp
  · rcases rest with _ | ⟨l | b, rest⟩
    · simp
    · simp only [List.head?_cons, Option.mem_def, Option.some.injEq, forall_eq']
      change l.kind.isBody = false
      rcases Heading.atSign_or_isHeader here with tags | header
      · rw [tags]
        rfl
      · simp [TokenKind.isBody, header]
    · cases here

lemma stop (seam : IsSeam rest) {wanted : TokenKind → Bool}
    (body : ∀ k, wanted k → k.isBody) :
    ∀ l below, rest = .line l :: below → wanted l.kind = false := by
  rintro l below rfl
  rw [Bool.eq_false_iff]
  intro more
  exact Bool.eq_false_iff.mp (seam.isBody _ rfl) (body _ more)

lemma takeLines_prose (seam : IsSeam rest) (items : List Item) :
    takeLines TokenKind.isProse (items ++ rest) =
      ((takeLines TokenKind.isProse items).1, (takeLines TokenKind.isProse items).2 ++ rest) :=
  takeLines_append_of_stop (seam.stop fun _ => TokenKind.isBody_of_isProse) items

lemma takeRows (seam : IsSeam rest) (items : List Item) :
    Step.takeRows (items ++ rest) = ((Step.takeRows items).1, (Step.takeRows items).2 ++ rest) := by
  refine takeLines_append_of_stop (seam.stop fun k pipe => ?_) items
  rw [of_decide_eq_true pipe]
  rfl

lemma steps (seam : IsSeam rest) (eof : Mark) (items : List Item) :
    Steps.take (startOf eof (items ++ rest)) (items ++ rest) =
      ((Steps.take (startOf (startOf eof rest) items) items).1,
        (Steps.take (startOf (startOf eof rest) items) items).2 ++ rest) := by
  have ends : rest.takeWhile (·.kind.isBody) = [] ∧ rest.dropWhile (·.kind.isBody) = rest := by
    cases rest with
    | nil => exact ⟨rfl, rfl⟩
    | cons i rest => simp [seam.isBody i rfl]
  have whole : (items ++ rest).takeWhile (·.kind.isBody) = items.takeWhile (·.kind.isBody) ∧
      (items ++ rest).dropWhile (·.kind.isBody) = items.dropWhile (·.kind.isBody) ++ rest := by
    induction items with
    | nil => exact ends
    | cons i items ih => by_cases body : i.kind.isBody <;> simp [body, ih]
  rw [Steps.take, Steps.take, startOf_append, whole.1, whole.2]

lemma heading (seam : IsSeam rest) {items below : List Item} {h : Heading}
    (found : Heading.take? items = some (h, below)) :
    Heading.take? (items ++ rest) = some (h, below ++ rest) := by
  obtain ⟨text, tags, header, prose⟩ := Heading.take?_eq_some.mp found
  refine Heading.take?_eq_some.mpr ⟨text ++ rest, ?_, header, ?_⟩
  · rw [takeLines_append_of_ne_nil (by simp [tags]), tags]
    rfl
  · rw [seam.takeLines_prose, prose]

lemma isExamples_of_heading (seam : IsSeam rest) {items below : List Item} {h : Heading}
    (last : IsSealed items) (none : Heading.take? items = none)
    (found : Heading.take? (items ++ rest) = some (h, below)) : h.kind.isExamples = false := by
  have kind := Heading.kind?_eq (items ++ rest)
  rw [found, Option.map_some] at kind
  by_cases empty : items = []
  · subst empty
    rcases seam with rfl | ⟨k, first, sort⟩
    · cases found
    · rw [List.nil_append, first] at kind
      exact Option.some.inj kind ▸ sort
  · rw [Heading.kind?_append empty last, Heading.take?_eq_none.mp none] at kind
    cases kind

lemma examples (seam : IsSeam rest) {items : List Item} (last : IsSealed items) :
    Examples.takeAll (items ++ rest) =
      ((Examples.takeAll items).1, (Examples.takeAll items).2 ++ rest) := by
  induction items using Examples.takeAll.induct with
  | case1 items found =>
    have none : Examples.take? (items ++ rest) = none := by
      rw [Option.eq_none_iff_forall_not_mem]
      rintro ⟨e, below⟩ here
      obtain ⟨text, heading, kind, rows⟩ := Examples.take?_eq_some.mp here
      cases front : Heading.take? items with
      | none => simp [seam.isExamples_of_heading last front heading] at kind
      | some taken =>
        obtain ⟨h, text'⟩ := taken
        obtain ⟨rfl, -⟩ := Prod.mk.inj (Option.some.inj ((seam.heading front).symm.trans heading))
        simp [Examples.take?, Heading.takeSection, front, kind] at found
    rw [Examples.takeAll_of_none found, Examples.takeAll_of_none none]
  | case2 items e below found ih =>
    obtain ⟨text, heading, kind, rows⟩ := Examples.take?_eq_some.mp found
    have taken : Examples.take? (items ++ rest) = some (e, below ++ rest) := by
      refine Examples.take?_eq_some.mpr ⟨text ++ rest, seam.heading heading, kind, ?_⟩
      rw [seam.takeRows, rows]
    rw [← Examples.items_of_take? found] at last
    rw [Examples.takeAll_of_some found, Examples.takeAll_of_some taken, ih last.of_append]

lemma scenario (seam : IsSeam rest) (eof : Mark) {i : Item} {items : List Item}
    (last : IsSealed (i :: items)) :
    Scenario.take? eof (i :: items ++ rest) =
      (Scenario.take? (startOf eof rest) (i :: items)).map fun (s, below) => (s, below ++ rest) := by
  cases front : Heading.take? (i :: items) with
  | none =>
    have none : Heading.take? (i :: items ++ rest) = none := by
      rw [Heading.take?_eq_none, Heading.kind?_append (by simp) last]
      exact Heading.take?_eq_none.mp front
    simp only [Scenario.take?, Heading.takeSection, front, none, Option.map_none]
  | some taken =>
    obtain ⟨h, below⟩ := taken
    have whole : Scenario.ofHeading eof h (below ++ rest) =
        ((Scenario.ofHeading (startOf eof rest) h below).1,
          (Scenario.ofHeading (startOf eof rest) h below).2 ++ rest) := by
      have left : IsSealed (Steps.take (startOf (startOf eof rest) below) below).2 := by
        rw [← Heading.items_of_take? front] at last
        have inner := last.of_append
        rw [← Steps.items_take (startOf (startOf eof rest) below) below] at inner
        exact inner.of_append
      simp only [Scenario.ofHeading, seam.steps, seam.examples left]
    simp only [Scenario.take?, Heading.takeSection, front, seam.heading front, whole]
    split <;> rfl

lemma entriesOf (seam : IsSeam rest) (eof : Mark) {items : List Item} (last : IsSealed items) :
    Scenarios.entriesOf eof (items ++ rest) =
      Scenarios.entriesOf (startOf eof rest) items ++ Scenarios.entriesOf eof rest := by
  induction items using Scenarios.entriesOf.induct (startOf eof rest) with
  | case1 => simp [Scenarios.entriesOf]
  | case2 i items s below found ih =>
    have taken := seam.scenario eof last
    rw [found, Option.map_some, List.cons_append] at taken
    rw [← Scenario.items_of_take? found] at last
    rw [Scenarios.entriesOf_of_some found, List.cons_append, List.cons_append,
      Scenarios.entriesOf_of_some taken, ih last.of_append]
  | case3 i items found ih =>
    have taken := seam.scenario eof last
    rw [found, Option.map_none, List.cons_append] at taken
    rw [Scenarios.entriesOf_of_none found, List.cons_append, List.cons_append,
      Scenarios.entriesOf_of_none taken, ih last.tail]

end Item.IsSeam

namespace Item

lemma isBody_of_mem_behindFence {more : List Token} {ending : Option Token}
    (free : ∀ t ∈ more, t.kind.isFree) : ∀ i ∈ behindFence more ending, i.kind.isBody := by
  rw [behindFence]
  split
  case h_1 => simp
  case h_2 t rest kept =>
    refine List.forall_mem_singleton.mpr ?_
    have here := free t ((List.dropWhile_suffix _).subset (kept ▸ List.mem_cons_self))
    change t.kind.isBody = true
    cases kind : t.kind <;> first | rfl | (rw [kind] at here; cases here)

lemma ofLines_append (opened : Option (Line × List Token)) {ls : List RawLine}
    (closed : ∀ b, .block b ∈ ofLines opened ls → b.closing ≠ none) (more : List RawLine) :
    ofLines opened (ls ++ more) = ofLines opened ls ++ ofLines none more := by
  fun_induction ofLines opened ls with
  | case1 => rfl
  | case2 opening content => exact absurd rfl (closed _ List.mem_cons_self)
  | case3 l rest blank ih => rw [List.cons_append, ofLines, blank, ih closed]
  | case4 l rest found here fence ih =>
    rw [List.cons_append, ofLines, here, ← ih closed]
    exact if_pos fence
  | case5 l rest found here other ih =>
    rw [List.cons_append, ofLines, here, List.cons_append,
      ← ih fun b hb => closed b (List.mem_cons_of_mem _ hb)]
    exact if_neg other
  | case6 opening content l rest inner ih => rw [List.cons_append, ofLines, inner, ih closed]
  | case7 opening content l rest indent fence more here ih =>
    rw [List.cons_append, ofLines, here, ih fun b hb =>
      closed b (List.mem_cons_of_mem _ (List.mem_append_right _ hb))]
    simp

lemma filterMap_significant?_eq_nil {ls : List RawLine} (none : ofLines none ls = []) :
    ls.filterMap RawLine.significant? = [] := by
  induction ls with
  | nil => rfl
  | cons l rest ih =>
    rw [ofLines] at none
    cases here : l.significant? with
    | none =>
      rw [here] at none
      rw [List.filterMap_cons_none here, ih none]
    | some found =>
      rw [here] at none
      dsimp only at none
      split at none
      · obtain ⟨b, items, block⟩ := ofLines_some_eq_cons (found, []) rest
        rw [block] at none
        cases none
      · cases none

lemma IsSealed.cons {i : Item} {items : List Item} (first : items = [] → ∀ l, i = line l →
    l.kind ≠ .atSign) (last : IsSealed items) : IsSealed (i :: items) := by
  cases items with
  | nil =>
    intro j hj
    obtain rfl := List.mem_singleton.mp (List.mem_of_getLast? hj)
    exact first rfl
  | cons j items =>
    intro k hk
    rw [List.getLast?_cons_cons] at hk
    exact last k hk

lemma IsSealed.append_left {items : List Item} (body : ∀ i ∈ items, i.kind.isBody)
    {rest : List Item} (last : IsSealed rest) : IsSealed (items ++ rest) := by
  induction items with
  | nil => exact last
  | cons i items ih =>
    obtain ⟨first, others⟩ := List.forall_mem_cons.mp body
    refine .cons (fun _ l same sign => ?_) (ih others)
    subst same
    change l.kind.isBody = true at first
    rw [sign] at first
    cases first

lemma isSealed_ofLines (opened : Option (Line × List Token)) {ls : List RawLine}
    (scanned : Scanned opened.isSome ls)
    (last : ∀ l ∈ (ls.filterMap RawLine.significant?).getLast?, l.kind ≠ .atSign) :
    IsSealed (ofLines opened ls) := by
  have below {l : RawLine} {rest : List RawLine}
      (last : ∀ l' ∈ ((l :: rest).filterMap RawLine.significant?).getLast?, l'.kind ≠ .atSign) :
      ∀ l' ∈ (rest.filterMap RawLine.significant?).getLast?, l'.kind ≠ .atSign := by
    intro l' hl
    refine last l' ?_
    cases here : l.significant? with
    | none => rwa [List.filterMap_cons_none here]
    | some found =>
      rw [Option.mem_def] at hl
      rw [List.filterMap_cons_some here, List.getLast?_cons, hl]
      rfl
  fun_induction ofLines opened ls with
  | case1 => simp [IsSealed]
  | case2 opening content => exact .cons (by simp) (by simp [IsSealed])
  | case3 l rest blank ih =>
    exact ih (scanned.rest_of_stays (RawLine.turns_of_significant?_none blank)) (below last)
  | case4 l rest found here fence ih =>
    exact ih (scanned.rest_of_turns ((scanned.turns_iff here).mpr fence)) (below last)
  | case5 l rest found here other ih =>
    refine .cons (fun none l' same => ?_)
      (ih (scanned.rest_of_stays (scanned.stays here other)) (below last))
    rw [List.filterMap_cons_some here, filterMap_significant?_eq_nil none] at last
    exact line.inj same ▸ last found rfl
  | case6 opening content l rest inner ih =>
    exact ih (scanned.rest_of_stays (RawLine.turns_of_closing?_none inner)) (below last)
  | case7 opening content l rest indent fence more here ih =>
    have free := isFree_of_closing? scanned.shape here
    exact .cons (by simp) (.append_left (isBody_of_mem_behindFence free)
      (ih (scanned.rest_of_turns (RawLine.turns_of_closing? here)) (below last)))

end Item

end FeatureFile
