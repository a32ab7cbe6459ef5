import FeatureFile.Proofs.Grammar.Complete

namespace FeatureFile

open Grammar
open RegularExpression (char star)

variable {eof : Mark} {pre rest items : List Item}

lemma Scenarios.entriesOf_of_spells (h : Spells Item.IsSound (star item) items) (eof : Mark) :
    (entriesOf eof items).any (Entry.isFaulty Scenario.tree) = false := by
  refine Spells.star_induction
    (motive := fun items => (entriesOf eof items).any (Entry.isFaulty Scenario.tree) = false)
      (by simp [entriesOf]) ?_ h
  intro pre post piece more ih
  have below : Follows (· ≠ .examples) (post ++ []) := by
    refine (begins_item.mono fun s sort => ?_).follows more (.inl rfl)
    rcases sort with rfl | rfl <;> decide
  rw [List.append_nil] at below
  obtain ⟨s, found, clean⟩ := Scenario.take?_append piece below eof
  cases whole : pre ++ post with
  | nil =>
    -- A scenario has a header, so it is not read from nothing.
    rw [whole] at found
    cases found
  | cons i items =>
    rw [whole] at found
    rw [entriesOf_of_some found, List.any_cons, ih]
    simpa [Entry.isFaulty] using clean

lemma Background.take_append (spelled : Spells Item.IsSound (1 + background) pre)
    (follows : Follows (· ≠ .background) rest) (eof : Mark) :
    ∃ b, take eof (pre ++ rest) = (b, rest) ∧ b.any (·.tree.hasError) = false := by
  rcases spells_opt.mp spelled with rfl | spelled
  · refine ⟨none, ?_, rfl⟩
    rcases rest with _ | ⟨l | b, rest⟩
    · rfl
    · have other : l.kind ≠ .header .background := by
        intro kind
        rcases follows with none | ⟨k, here, sort⟩
        · cases none
        · rw [Heading.kind?, kind] at here
          obtain rfl := Option.some.inj here
          exact sort rfl
      simp [take, other]
    · rfl
  · obtain ⟨_, steps, rfl, front, body⟩ := spells_mul.mp spelled
    obtain ⟨l, ls, rfl, symbol, formed⟩ := formed_of_spells_header rfl front
    have kind := (Symbol.ofKind_eq_iff rfl).mp symbol
    have prose := formed.takeLines_description (Steps.next_ne_prose body follows.next)
    refine ⟨some ⟨⟨[], l, ls⟩, ⟨Item.startOf eof (steps ++ rest), Steps.entriesOf steps⟩⟩, ?_, ?_⟩
    · simp only [List.cons_append, List.append_assoc, take, kind, if_true, prose,
        Steps.take_append body follows.next]
    · simp [hasError_tree, Steps.hasError_of_spells body]

lemma Background.next_ne_prose (spelled : Spells Item.IsSound (1 + background) pre)
    (stop : next rest ≠ some .prose) : next (pre ++ rest) ≠ some .prose := by
  rcases spells_opt.mp spelled with rfl | spelled
  · exact stop
  · obtain ⟨_, steps, rfl, front, -⟩ := spells_mul.mp spelled
    obtain ⟨l, ls, rfl, symbol, -⟩ := formed_of_spells_header rfl front
    simp [next, Item.symbol, symbol]

namespace Grammar

structure IsOwn (items : List Item) : Prop where
  rule : ∀ i ∈ items, i.symbol ≠ .rule
  last : ∀ i ∈ items.getLast?, i.symbol ≠ .tags

lemma IsOwn.append {items items' : List Item} (h : IsOwn items) (h' : IsOwn items') :
    IsOwn (items ++ items') := by
  refine ⟨List.forall_mem_append.mpr ⟨h.rule, h'.rule⟩, fun i hi => ?_⟩
  rw [List.getLast?_append] at hi
  cases last : items'.getLast? with
  | none =>
    rw [last] at hi
    exact h.last i hi
  | some j =>
    rw [last] at hi
    exact h'.last i (last ▸ hi)

lemma IsOwn.nil : IsOwn [] :=
  ⟨by simp, by simp⟩

section

variable {s : Symbol}

lemma isOwn_char (rule : s ≠ .rule) (tags : s ≠ .tags) : Yields Item.IsSound IsOwn (char s) := by
  intro items spelled
  obtain ⟨i, rfl, rfl, -⟩ := spells_char.mp spelled
  exact ⟨by simpa using rule, by simpa using tags⟩

lemma isOwn_heading (rule : s ≠ .rule) (tags : s ≠ .tags) :
    Yields Item.IsSound IsOwn (heading s) := by
  intro items spelled
  obtain ⟨signs, front, rfl, before, below⟩ := spells_mul.mp spelled
  have prose := (isOwn_char (s := .prose) (by decide) (by decide)).star .nil .append
  have own := (isOwn_char rule tags).mul .append prose front below
  obtain ⟨_, _, rfl, header, -⟩ := spells_mul.mp below
  obtain ⟨i, rfl, -, -⟩ := spells_char.mp header
  refine ⟨List.forall_mem_append.mpr ⟨fun j hj => ?_, own.rule⟩, fun j hj => own.last j ?_⟩
  · rw [(spells_star_char.mp before j hj).1]
    decide
  · rwa [List.getLast?_append_of_ne_nil _ (by simp)] at hj

end

lemma isOwn_steps : Yields Item.IsSound IsOwn (star step) :=
  have keyword := isOwn_char (s := .step) (by decide) (by decide)
  have doc := (isOwn_char (s := .doc) (by decide) (by decide)).opt .nil
  have rows := (isOwn_char (s := .row) (by decide) (by decide)).star .nil .append
  ((keyword.mul .append doc).mul .append rows).star .nil .append

lemma isOwn_examples : Yields Item.IsSound IsOwn (examples * star examples) :=
  have row := isOwn_char (s := .row) (by decide) (by decide)
  have front := isOwn_heading (s := .examples) (by decide) (by decide)
  have table := front.mul .append (row.mul .append (row.star .nil .append))
  table.mul .append (table.star .nil .append)

lemma isOwn_items : Yields Item.IsSound IsOwn (star item) :=
  have scenario := isOwn_heading (s := .scenario) (by decide) (by decide)
  have outline := isOwn_heading (s := .outline) (by decide) (by decide)
  ((scenario.mul .append isOwn_steps).add
    ((outline.mul .append isOwn_steps).mul .append isOwn_examples)).star
    .nil .append

end Grammar

namespace BusinessRule

lemma startsAt_append (own : IsOwn pre) (some : pre ≠ []) (rest : List Item) :
    startsAt (pre ++ rest) = false := by
  rw [Bool.eq_false_iff, ne_eq, startsAt_iff]
  induction pre with
  | nil => exact absurd rfl some
  | cons i pre ih =>
    obtain ⟨first, others⟩ := List.forall_mem_cons.mp own.rule
    cases i with
    | block b => simp [Heading.kind?]
    | line l =>
      rw [List.cons_append, Heading.kind?]
      split
      case isTrue tags =>
        -- The tags are those of something within, since the last item is no tag line.
        have inner : pre ≠ [] := by
          rintro rfl
          exact own.last _ rfl ((Symbol.ofKind_eq_iff rfl).mpr tags)
        refine ih ⟨others, fun j hj => own.last j ?_⟩ inner
        rwa [List.getLast?_cons_of_ne_nil inner]
      case isFalse =>
        split
        · intro same
          exact first ((Symbol.ofKind_eq_iff rfl).mpr (Option.some.inj same))
        · simp

lemma untilNext_append (own : IsOwn pre) (follows : Follows (· = .rule) rest) :
    untilNext (pre ++ rest) = (pre, rest) := by
  induction pre with
  | nil =>
    rcases follows with rfl | ⟨k, here, sort⟩
    · rfl
    · cases rest with
      | nil => rfl
      | cons i rest =>
        have starts : startsAt (i :: rest) := by
          rw [startsAt_iff, here, (Symbol.ofKind_eq_iff rfl).mp sort]
        rw [List.nil_append, untilNext, if_pos starts]
  | cons i pre ih =>
    have inner := startsAt_append own (by simp) rest
    have below : IsOwn pre := by
      refine ⟨(List.forall_mem_cons.mp own.rule).2, fun j hj => own.last j ?_⟩
      cases pre with
      | nil => cases hj
      | cons => exact hj
    rw [List.cons_append] at inner ⊢
    rw [untilNext, inner, ih below]
    rfl

lemma take?_append (spelled : Spells Item.IsSound rule pre) (follows : Follows (· = .rule) rest)
    (eof : Mark) :
    ∃ r, take? eof (pre ++ rest) = some (r, rest) ∧ r.tree.hasError = false := by
  obtain ⟨_, own, rfl, front, scenarios⟩ := spells_mul.mp spelled
  obtain ⟨_, first, rfl, front, background⟩ := spells_mul.mp front
  have below : Follows (· ≠ .background) (own ++ rest) := by
    refine (begins_item.mono fun s sort => ?_).follows scenarios (follows.mono fun s sort => ?_)
    · rcases sort with rfl | rfl <;> decide
    · rw [sort]
      decide
  obtain ⟨h, heading, symbol, clean⟩ := Heading.take?_of_spells rfl front
    (Background.next_ne_prose background below.next_ne_prose)
  obtain ⟨b, taken, sound⟩ := Background.take_append background below eof
  have kind : h.kind = .header .rule := (Symbol.ofKind_eq_iff rfl).mp symbol
  have ends := untilNext_append (isOwn_items own scenarios) follows
  refine ⟨⟨h, b, Scenarios.ofItems (Item.startOf eof rest) own⟩, ?_, ?_⟩
  · rw [List.append_assoc, List.append_assoc]
    apply Heading.takeSection_eq_some.mpr ⟨h, _, heading, decide_eq_true kind, _⟩
    simp only [ofHeading, taken, ends]
  · simp [hasError_tree, Scenarios.hasError_tree, clean, sound, Scenarios.ofItems,
      Scenarios.entriesOf_of_spells scenarios]

lemma entriesOf_of_spells (spelled : Spells Item.IsSound (star rule) items) (eof : Mark) :
    (entriesOf eof items).any (Entry.isFaulty tree) = false := by
  refine Spells.star_induction
    (motive := fun items => (entriesOf eof items).any (Entry.isFaulty tree) = false) ?_ ?_ spelled
  · rw [entriesOf]
    rfl
  · intro pre post piece more ih
    have below := begins_rule.follows more (.inl rfl)
    rw [List.append_nil] at below
    obtain ⟨r, found, clean⟩ := take?_append piece below eof
    rw [entriesOf_of_some found, List.any_cons, ih, Bool.or_false]
    exact clean

end BusinessRule

namespace Content

lemma startsAt_of_spells (spelled : Spells Item.IsSound (rule * star rule) items) :
    BusinessRule.startsAt items := by
  obtain ⟨k, here, sort⟩ := begins_rule.mul items spelled []
  rw [List.append_nil] at here
  rw [BusinessRule.startsAt_iff, here, (Symbol.ofKind_eq_iff rfl).mp sort]

lemma not_startsAt_of_spells (spelled : Spells Item.IsSound (star item) items) :
    BusinessRule.startsAt items = false := by
  cases items with
  | nil => rfl
  | cons i items =>
    have none := BusinessRule.startsAt_append (isOwn_items _ spelled) (by simp) []
    rwa [List.append_nil] at none

lemma follows_of_spells (spelled : Spells Item.IsSound (rule * star rule + star item) items) :
    Follows (· ≠ .background) items := by
  rcases spells_add.mp spelled with rules | scenarios
  · obtain ⟨k, here, sort⟩ := begins_rule.mul items rules []
    rw [List.append_nil] at here
    exact .inr ⟨k, here, by simp [sort]⟩
  · have follows := begins_item.follows scenarios (.inl rfl)
    rw [List.append_nil] at follows
    exact follows.mono fun s sort => by rcases sort with rfl | rfl <;> decide

lemma hasError_of_spells (spelled : Spells Item.IsSound (rule * star rule + star item) items)
    (eof anchor : Mark) :
    ((ofItems eof items).tree anchor).hasError = false := by
  rw [hasError_tree]
  rcases spells_add.mp spelled with rules | scenarios
  · rw [ofItems, if_pos (startsAt_of_spells rules)]
    obtain ⟨_, _, rfl, first, others⟩ := spells_mul.mp rules
    exact BusinessRule.entriesOf_of_spells (first.star_cons others) eof
  · rw [ofItems, if_neg (by simp [not_startsAt_of_spells scenarios])]
    simpa [Scenarios.hasError_tree, Scenarios.ofItems] using
      Scenarios.entriesOf_of_spells scenarios eof

end Content

end FeatureFile
