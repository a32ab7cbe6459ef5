import FeatureFile.Proofs.Grammar.Headings

namespace FeatureFile

open Grammar
open RegularExpression (char star)

variable {eof : Mark} {pre rest items : List Item}

namespace Step

lemma takeRows_append {rows : List Line} (pipes : ∀ l ∈ rows, Symbol.ofKind l.kind = .row)
    (stop : next rest ≠ some .row) : takeRows (rows.map .line ++ rest) = (rows, rest) := by
  refine Item.takeLines_append_of_next (fun l hl => ?_) (fun k pipe => ?_) stop
  · exact decide_eq_true ((Symbol.ofKind_eq_iff rfl).mp (pipes l hl))
  · exact (Symbol.ofKind_eq_iff rfl).mpr (of_decide_eq_true pipe)

lemma takeBlock_of_next (stop : next rest ≠ some .doc) : takeBlock rest = (none, rest) := by
  unfold takeBlock
  split
  · exact absurd rfl stop
  · rfl

lemma formed_of_spells (h : Spells Item.IsSound Grammar.step pre) :
    ∃ s : Step, pre = s.items ∧ Symbol.ofKind s.line.kind = .step ∧
      (∀ l ∈ s.rows, Symbol.ofKind l.kind = .row) ∧ s.tree.hasError = false := by
  obtain ⟨_, _, rfl, front, rows⟩ := spells_mul.mp h
  obtain ⟨_, _, rfl, keyword, block⟩ := spells_mul.mp front
  obtain ⟨l, rfl, symbol, -⟩ := line_of_spells (by decide) keyword
  obtain ⟨ls, rfl, pipes⟩ := lines_of_spells (by decide) rows
  rcases spells_opt.mp block with rfl | doc
  · exact ⟨⟨l, none, ls⟩, rfl, symbol, fun l hl => (pipes l hl).1, by simp [hasError_tree]⟩
  · obtain ⟨i, rfl, doc, clean, proper⟩ := spells_char.mp doc
    obtain ⟨b, rfl⟩ := proper.block_of_symbol doc
    refine ⟨⟨l, some b, ls⟩, rfl, symbol, fun l hl => (pipes l hl).1, ?_⟩
    simpa [hasError_tree, Item.IsClean] using clean

lemma take_append {s : Step} (pipes : ∀ l ∈ s.rows, Symbol.ofKind l.kind = .row)
    (undoc : next rest ≠ some .doc)
    (unrow : next rest ≠ some .row) :
    take s.line (s.block.toList.map .block ++ s.rows.map .line ++ rest) = (s, rest) := by
  obtain ⟨l, block, rows⟩ := s
  have taken := takeRows_append pipes unrow
  cases block with
  | some b => simp [take, takeBlock, taken]
  | none =>
    have undoc : next (rows.map .line ++ rest) ≠ some .doc := by
      cases rows with
      | nil => exact undoc
      | cons l rows => simp [next, Item.symbol, pipes l List.mem_cons_self]
    simp [take, takeBlock_of_next undoc, taken]

end Step

namespace Steps

lemma next_of_spells (h : Spells Item.IsSound (star step) pre)
    (stop : ∀ s ∈ next rest, s.isBody = false) :
    ∀ s ∈ next (pre ++ rest), s = .step ∨ s.isBody = false := by
  rcases spells_star.mp h with rfl | ⟨first, others, rfl, here, -⟩
  · exact fun s hs => .inr (stop s hs)
  · obtain ⟨s, rfl, keyword, -, -⟩ := Step.formed_of_spells here
    simp [next, Step.items, Item.symbol, keyword]

lemma next_ne_prose (h : Spells Item.IsSound (star step) pre)
    (stop : ∀ s ∈ next rest, s.isBody = false) :
    next (pre ++ rest) ≠ some .prose :=
  fun prose => by simpa [Symbol.isBody] using next_of_spells h stop _ prose

lemma isBody_char {s : Symbol} (body : s.isBody) :
    Yields Item.IsSound (fun items => ∀ i ∈ items, i.kind.isBody) (char s) := by
  intro items spelled
  obtain ⟨i, rfl, rfl, sound⟩ := spells_char.mp spelled
  simpa using sound.2.isBody body

lemma isBody_of_spells :
    Yields Item.IsSound (fun items => ∀ i ∈ items, i.kind.isBody) (star step) := by
  have nil : ∀ i ∈ ([] : List Item), i.kind.isBody := by simp
  have append {items items' : List Item} (h : ∀ i ∈ items, i.kind.isBody)
    (h' : ∀ i ∈ items', i.kind.isBody) :
      ∀ i ∈ items ++ items', i.kind.isBody := List.forall_mem_append.mpr ⟨h, h'⟩
  have doc := (isBody_char (s := .doc) rfl).opt nil
  have rows := (isBody_char (s := .row) rfl).star nil append
  exact (((isBody_char rfl).mul append doc).mul append rows).star nil append

lemma entriesOf_of_spells (h : Spells Item.IsSound (star step) items) :
    (entriesOf items).any (Entry.isFaulty Step.tree) = false := by
  refine Spells.star_induction (motive := fun items => (entriesOf items).any
    (Entry.isFaulty Step.tree) = false)
    (by simp [entriesOf]) ?_ h
  intro pre post piece more ih
  have stop : ∀ s ∈ next [], s.isBody = false := by simp [next]
  have below := next_of_spells more stop
  rw [List.append_nil] at below
  have undoc : next post ≠ some .doc := fun doc => by simpa [Symbol.isBody] using below _ doc
  have unrow : next post ≠ some .row := fun row => by simpa [Symbol.isBody] using below _ row
  obtain ⟨s, rfl, keyword, pipes, clean⟩ := Step.formed_of_spells piece
  rw [Step.items, List.cons_append, entriesOf, if_pos (Symbol.isStep_of_ofKind keyword),
    Step.take_append pipes undoc unrow, List.any_cons, ih]
  simpa [Entry.isFaulty] using clean

lemma take_append (h : Spells Item.IsSound (star step) pre)
    (stop : ∀ s ∈ next rest, s.isBody = false)
    (anchor : Mark) : take anchor (pre ++ rest) = (⟨anchor, entriesOf pre⟩, rest) := by
  have body := isBody_of_spells pre h
  have ends : rest.takeWhile (·.kind.isBody) = [] ∧ rest.dropWhile (·.kind.isBody) = rest := by
    cases rest with
    | nil => exact ⟨rfl, rfl⟩
    | cons i rest =>
      have other : i.kind.isBody = false := by
        rw [Bool.eq_false_iff]
        intro more
        have symbol := stop i.symbol rfl
        cases i with
        | line l =>
          have body : (Symbol.ofKind l.kind).isBody := Symbol.isBody_ofKind_of_isBody more
          simp [Item.symbol, body] at symbol
        | block b => cases symbol
      simp [other]
  simp only [take, List.takeWhile_append_of_pos body, List.dropWhile_append_of_pos body, ends,
    List.append_nil]

end Steps

namespace Examples

lemma take?_append (spelled : Spells Item.IsSound examples pre) (stop : next rest ≠ some .row) :
    ∃ e, take? (pre ++ rest) = some (e, rest) ∧ e.tree.hasError = false := by
  obtain ⟨_, _, rfl, front, table⟩ := spells_mul.mp spelled
  obtain ⟨_, _, rfl, first, others⟩ := spells_mul.mp table
  obtain ⟨h, rfl, symbol, formed, clean⟩ := formed_of_spells_heading rfl front
  obtain ⟨l, rfl, row, -⟩ := line_of_spells (by decide) first
  obtain ⟨ls, rfl, rows⟩ := lines_of_spells (by decide) others
  have unprose : next ((l :: ls).map Item.line ++ rest) ≠ some .prose := by
    simp [next, Item.symbol, row]
  have heading := formed.take?_append unprose
  have pipes : ∀ l' ∈ l :: ls, Symbol.ofKind l'.kind = .row :=
    List.forall_mem_cons.mpr ⟨row, fun l' hl => (rows l' hl).1⟩
  have table := Step.takeRows_append pipes stop
  have kind := Symbol.isExamples_of_ofKind symbol
  refine ⟨⟨h, l :: ls⟩, take?_eq_some.mpr ⟨_, ?_, kind, table⟩, by simp [hasError_tree, clean]⟩
  simpa using heading

lemma takeAll_of_follows (follows : Follows (· ≠ .examples) rest) : takeAll rest = ([], rest) := by
  apply takeAll_of_none
  rw [Option.eq_none_iff_forall_ne_some]
  rintro ⟨e, left⟩ found
  obtain ⟨below, heading, kind, -⟩ := take?_eq_some.mp found
  exact follows.kind heading (Symbol.ofKind_of_isExamples kind)

lemma takeAll_cons (piece : Spells Item.IsSound examples pre)
    (follows : Follows (fun _ => True) rest)
    {es : List Examples} {left : List Item} (taken : takeAll rest = (es, left))
    (clean : ∀ e ∈ es, e.tree.hasError = false) :
    ∃ e, takeAll (pre ++ rest) = (e :: es, left) ∧ ∀ e' ∈ e :: es, e'.tree.hasError = false := by
  have unrow : next rest ≠ some .row := fun row => by simpa [Symbol.isBody] using follows.next _ row
  obtain ⟨e, found, first⟩ := take?_append piece unrow
  refine ⟨e, ?_, List.forall_mem_cons.mpr ⟨first, clean⟩⟩
  rw [takeAll_of_some found, taken]

lemma follows_star (more : Spells Item.IsSound (star examples) pre)
    (follows : Follows (· ≠ .examples) rest) :
    Follows (fun _ => True) (pre ++ rest) :=
  (begins_examples.mono fun _ _ => trivial).follows more (follows.mono fun _ _ => trivial)

lemma takeAll_append (spelled : Spells Item.IsSound (star examples) pre)
    (follows : Follows (· ≠ .examples) rest) :
    ∃ es, takeAll (pre ++ rest) = (es, rest) ∧ ∀ e ∈ es, e.tree.hasError = false := by
  refine Spells.star_induction
    (motive := fun pre =>
      ∃ es, takeAll (pre ++ rest) = (es, rest) ∧ ∀ e ∈ es, e.tree.hasError = false) ?_ ?_ spelled
  · exact ⟨[], takeAll_of_follows follows, by simp⟩
  · intro pre post piece more ⟨es, taken, clean⟩
    obtain ⟨e, whole, all⟩ := takeAll_cons piece (follows_star more follows) taken clean
    exact ⟨e :: es, List.append_assoc pre post rest ▸ whole, all⟩

lemma takeAll_append_of_some (spelled : Spells Item.IsSound (examples * star examples) pre)
    (follows : Follows (· ≠ .examples) rest) :
    ∃ es, takeAll (pre ++ rest) = (es, rest) ∧ es ≠ [] ∧ ∀ e ∈ es, e.tree.hasError = false := by
  obtain ⟨first, others, rfl, piece, more⟩ := spells_mul.mp spelled
  obtain ⟨es, taken, clean⟩ := takeAll_append more follows
  obtain ⟨e, whole, all⟩ := takeAll_cons piece (follows_star more follows) taken clean
  exact ⟨e :: es, List.append_assoc first others rest ▸ whole, by simp, all⟩

end Examples

lemma Steps.hasError_of_spells (h : Spells Item.IsSound (star step) items) (anchor : Mark) :
    (Steps.tree ⟨anchor, entriesOf items⟩).hasError = false := by
  rw [hasError_tree]
  exact entriesOf_of_spells h

namespace Scenario

lemma take?_of_parts {h : Heading} {steps below : List Item} {es : List Examples}
    (heading : Heading.take? items = some (h, steps ++ below)) (kind : h.kind.isScenario)
    (spelled : Spells Item.IsSound (star step) steps) (stop : ∀ s ∈ next below, s.isBody = false)
    (taken : Examples.takeAll below = (es, rest)) (eof : Mark) :
    take? eof items =
      some (⟨h, ⟨Item.startOf eof (steps ++ below), Steps.entriesOf steps⟩, es⟩, rest) := by
  apply Heading.takeSection_eq_some.mpr ⟨h, _, heading, kind, _⟩
  simp only [ofHeading, Steps.take_append spelled stop, taken]

lemma take?_append (spelled : Spells Item.IsSound item pre) (follows : Follows (· ≠ .examples) rest)
    (eof : Mark) :
    ∃ s, take? eof (pre ++ rest) = some (s, rest) ∧ s.tree.hasError = false := by
  rcases spells_add.mp spelled with plain | outline
  · obtain ⟨_, steps, rfl, front, body⟩ := spells_mul.mp plain
    obtain ⟨h, heading, symbol, clean⟩ :=
      Heading.take?_of_spells rfl front (Steps.next_ne_prose body follows.next)
    have kind := Symbol.isScenario_of_ofKind (.inl symbol)
    have plain : h.kind ≠ .header .outline := by
      intro outline
      rw [outline] at symbol
      cases symbol
    rw [List.append_assoc]
    refine ⟨_, take?_of_parts heading kind body follows.next
      (Examples.takeAll_of_follows follows) eof, ?_⟩
    simp [hasError_tree, isFaulty, isOutline, plain, clean, Steps.hasError_of_spells body]
  · obtain ⟨_, table, rfl, front, all⟩ := spells_mul.mp outline
    obtain ⟨_, steps, rfl, front, body⟩ := spells_mul.mp front
    have below : Follows (· = .examples) (table ++ rest) :=
      .inr (begins_examples.mul table all rest)
    obtain ⟨h, heading, symbol, clean⟩ :=
      Heading.take?_of_spells rfl front (Steps.next_ne_prose body below.next)
    obtain ⟨es, taken, some, faultless⟩ := Examples.takeAll_append_of_some all follows
    have kind := Symbol.isScenario_of_ofKind (.inr symbol)
    have outline := (Symbol.ofKind_eq_iff rfl).mp symbol
    rw [List.append_assoc, List.append_assoc]
    refine ⟨_, take?_of_parts heading kind body below.next taken eof, ?_⟩
    simpa [hasError_tree, isFaulty, isOutline, outline, clean, some,
      Steps.hasError_of_spells body] using faultless

end Scenario

end FeatureFile
