import FeatureFile.Proofs.Grammar.Spells

namespace FeatureFile

open Grammar
open RegularExpression (char star)

namespace Grammar

variable {a : Symbol} {l : Line} {ls : List Line}

lemma spells_line (symbol : Symbol.ofKind l.kind = a) (clean : (Item.line l).IsClean) :
    Spells Item.IsClean (char a) [.line l] :=
  spells_char.mpr ⟨_, rfl, symbol, clean⟩

lemma isClean_of_ne (other : l.kind ≠ .atSign) : (Item.line l).IsClean :=
  fun tags => absurd tags other

lemma spells_lines (h : ∀ l ∈ ls, Spells Item.IsClean (char a) [.line l]) :
    Spells Item.IsClean (star (char a)) (ls.map .line) := by
  rw [List.map_eq_flatMap]
  exact .flatMap h

lemma spells_rows (items : List Item) :
    ∀ l ∈ (Step.takeRows items).1, Spells Item.IsClean (char .row) [.line l] := by
  intro l hl
  have pipe : l.kind = .pipe := of_decide_eq_true (Item.wanted_of_mem_takeLines l hl)
  refine spells_line ?_ (isClean_of_ne ?_) <;> rw [pipe]
  · rfl
  · decide

end Grammar

namespace Heading.IsFormed

variable {h : Heading}

lemma spells_header (formed : h.IsFormed) :
    Spells Item.IsClean (Grammar.header (Symbol.ofKind h.kind))
      (.line h.header :: h.description.map .line) := by
  have word : Spells Item.IsClean (char (Symbol.ofKind h.kind)) [.line h.header] := by
    refine spells_line rfl (isClean_of_ne fun sign => ?_)
    have := formed.header
    simp [Heading.kind, sign, TokenKind.isHeader] at this
  have prose : ∀ l ∈ h.description, Spells Item.IsClean (char .prose) [.line l] := by
    intro l hl
    have kind := formed.description l hl
    refine spells_line (Symbol.ofKind_of_isProse kind) (isClean_of_ne fun sign => ?_)
    simp [sign, TokenKind.isProse] at kind
  exact word.mul (spells_lines prose)

lemma spells (formed : h.IsFormed) (clean : h.tags.any Line.hasFaultyTags = false) :
    Spells Item.IsClean (Grammar.heading (Symbol.ofKind h.kind)) h.items := by
  have tags : ∀ l ∈ h.tags, Spells Item.IsClean (char .tags) [.line l] := by
    intro l hl
    refine spells_line ?_ fun _ => ?_
    · rw [formed.tags l hl]
      rfl
    · simpa using List.any_eq_false.mp clean l hl
  exact (spells_lines tags).mul formed.spells_header

end Heading.IsFormed

namespace Step

lemma spells_take {l : Line} {items : List Item} (step : l.kind.isStep)
    (clean : (take l items).1.tree.hasError = false) :
    Spells Item.IsClean Grammar.step (take l items).1.items := by
  have keyword : Spells Item.IsClean (char .step) [.line l] := by
    refine spells_line (Symbol.ofKind_of_isStep step) (isClean_of_ne fun sign => ?_)
    simp [sign, TokenKind.isStep] at step
  have block : Spells Item.IsClean (1 + char .doc) ((take l items).1.block.toList.map .block) := by
    rw [hasError_tree] at clean
    cases h : (take l items).1.block with
    | none => exact spells_opt.mpr (.inl rfl)
    | some b =>
      rw [h] at clean
      refine spells_opt.mpr (.inr (spells_char.mpr ⟨_, rfl, rfl, ?_⟩))
      simpa [Item.IsClean] using clean
  have whole := (keyword.mul block).mul (spells_lines (spells_rows (takeBlock items).2))
  rwa [List.append_assoc, List.singleton_append] at whole

end Step

lemma Steps.spells_entriesOf {items : List Item}
    (clean : (entriesOf items).any (Entry.isFaulty Step.tree) = false) :
    Spells Item.IsClean (star step) items := by
  induction items using entriesOf.induct with
  | case1 => exact .star_nil
  | case2 b rest ih => simp [entriesOf, Entry.isFaulty] at clean
  | case3 l rest keyword ih =>
    rw [entriesOf, if_pos keyword, List.any_cons, Bool.or_eq_false_iff] at clean
    have whole := (Step.spells_take keyword clean.1).star_cons (ih clean.2)
    rwa [Step.items_take] at whole
  | case4 l rest other ih => simp [entriesOf, other, Entry.isFaulty] at clean

lemma Steps.spells_take {anchor : Mark} {items : List Item}
    (clean : (take anchor items).1.tree.hasError = false) :
    Spells Item.IsClean (star step) (take anchor items).1.items := by
  rw [hasError_tree] at clean
  have own := spells_entriesOf clean
  rwa [← items_entriesOf (items.takeWhile _)] at own

namespace Examples

variable {items rest : List Item} {e : Examples}

lemma spells_of_take? (found : take? items = some (e, rest)) (clean : e.tree.hasError = false) :
    Spells Item.IsClean examples e.items := by
  rw [hasError_tree, Bool.or_eq_false_iff] at clean
  obtain ⟨below, here, kind, taken⟩ := take?_eq_some.mp found
  have heading := (Heading.isFormed_of_take? here).spells clean.2
  rw [Symbol.ofKind_of_isExamples kind] at heading
  have some : e.rows ≠ [] := by simpa using clean.1
  have pipes := spells_rows below
  rw [taken] at pipes
  have rows := Spells.flatMap_of_ne_nil some pipes
  rw [← List.map_eq_flatMap] at rows
  exact heading.mul rows

lemma spells_of_mem_takeAll :
    ∀ e ∈ (takeAll items).1, e.tree.hasError = false → Spells Item.IsClean examples e.items := by
  induction items using takeAll.induct with
  | case1 items none => simp [takeAll_of_none none]
  | case2 items e rest found ih =>
    rw [takeAll_of_some found]
    exact List.forall_mem_cons.mpr ⟨spells_of_take? found, ih⟩

end Examples

namespace Scenario

lemma spells {s : Scenario} (kind : s.heading.kind.isScenario)
    (front : Spells Item.IsClean (Grammar.heading (Symbol.ofKind s.heading.kind)) s.heading.items)
    (steps : Spells Item.IsClean (star step) s.steps.items)
    (each : ∀ e ∈ s.examples, Spells Item.IsClean Grammar.examples e.items)
    (own : s.isFaulty = false) :
    Spells Item.IsClean item s.items := by
  have body := front.mul steps
  rw [Symbol.ofKind_of_isScenario kind] at body
  apply spells_add.mpr
  by_cases outline : s.heading.kind = .header .outline
  · have some : s.examples ≠ [] := by simpa [isFaulty, isOutline, outline] using own
    rw [if_pos outline] at body
    exact .inr (body.mul (.flatMap_of_ne_nil some each))
  · have none : s.examples = [] := by simpa [isFaulty, isOutline, outline] using own
    rw [if_neg outline] at body
    rw [Scenario.items, none, List.flatMap_nil, List.append_nil]
    exact .inl body

lemma spells_of_take? {eof : Mark} {items rest : List Item} {s : Scenario}
    (found : take? eof items = some (s, rest)) (clean : s.tree.hasError = false) :
    Spells Item.IsClean item s.items := by
  simp only [hasError_tree, Bool.or_eq_false_iff] at clean
  obtain ⟨own, tags, steps, all⟩ := clean
  obtain ⟨h, below, here, kind, whole⟩ := Heading.takeSection_eq_some.mp found
  obtain ⟨rfl, -⟩ := Prod.mk.inj whole
  apply spells kind ((Heading.isFormed_of_take? here).spells tags) (Steps.spells_take steps) _ own
  intro e he
  exact Examples.spells_of_mem_takeAll e he (by simpa using List.any_eq_false.mp all e he)

end Scenario

lemma Scenarios.spells_entriesOf {eof : Mark} {items : List Item}
    (clean : (entriesOf eof items).any (Entry.isFaulty Scenario.tree) = false) :
    Spells Item.IsClean (star item) items := by
  induction items using entriesOf.induct eof with
  | case1 => exact .star_nil
  | case2 i items s rest found ih =>
    rw [entriesOf_of_some found, List.any_cons, Bool.or_eq_false_iff] at clean
    have whole := (Scenario.spells_of_take? found clean.1).star_cons (ih clean.2)
    rwa [Scenario.items_of_take? found] at whole
  | case3 i items found ih => simp [entriesOf_of_none found, Entry.isFaulty] at clean

lemma Scenarios.spells_ofItems {eof anchor : Mark} {items : List Item}
    (clean : (Scenarios.tree ⟨anchor, entriesOf eof items⟩).hasError = false) :
    Spells Item.IsClean (star item) (Scenarios.items ⟨anchor, entriesOf eof items⟩) := by
  rw [hasError_tree] at clean
  have own := spells_entriesOf clean
  rwa [← items_entriesOf eof items] at own

lemma Background.spells_take {eof : Mark} {items : List Item}
    (clean : (take eof items).1.any (·.tree.hasError) = false) :
    Spells Item.IsClean (1 + background) ((take eof items).1.toList.flatMap Background.items) := by
  apply spells_opt.mpr
  unfold take at clean ⊢
  split
  case h_2 => exact .inl rfl
  case h_1 l rest =>
    by_cases kind : l.kind = .header .background
    case neg => simp [kind]
    case pos =>
      have formed : Heading.IsFormed ⟨[], l, (Item.takeLines TokenKind.isProse rest).1⟩ :=
        ⟨by simp, by simp [Heading.kind, kind, TokenKind.isHeader], Item.wanted_of_mem_takeLines⟩
      simp only [if_pos kind, Option.any_some, hasError_tree, Bool.or_eq_false_iff] at clean
      have front := formed.spells_header
      simp only [Heading.kind, kind] at front
      rw [if_pos kind]
      right
      have whole : Spells Item.IsClean background _ := front.mul (Steps.spells_take clean.2)
      simpa [Background.items, Heading.items] using whole

namespace BusinessRule

variable {eof : Mark} {items rest : List Item} {r : BusinessRule}

lemma spells_of_take? (found : take? eof items = some (r, rest)) (clean : r.tree.hasError = false) :
    Spells Item.IsClean rule r.items := by
  simp only [hasError_tree, Bool.or_eq_false_iff] at clean
  obtain ⟨tags, background, scenarios⟩ := clean
  obtain ⟨h, below, here, kind, whole⟩ := Heading.takeSection_eq_some.mp found
  obtain ⟨rfl, -⟩ := Prod.mk.inj whole
  have heading := (Heading.isFormed_of_take? here).spells tags
  rw [of_decide_eq_true kind] at heading
  exact (heading.mul (Background.spells_take background)).mul (Scenarios.spells_ofItems scenarios)

lemma spells_entriesOf (start : items = [] ∨ startsAt items) :
    (entriesOf eof items).any (Entry.isFaulty tree) = false →
      Spells Item.IsClean (star rule) items := by
  refine row_induction eof
    (motive := fun items => (entriesOf eof items).any (Entry.isFaulty tree) = false →
      Spells Item.IsClean (star rule) items)
    (fun _ => .star_nil) (fun items r rest found ih clean => ?_) start
  rw [entriesOf_of_some found, List.any_cons, Bool.or_eq_false_iff] at clean
  have whole := (spells_of_take? found clean.1).star_cons (ih clean.2)
  rwa [items_of_take? found] at whole

end BusinessRule

lemma Content.spells_ofItems {eof anchor : Mark} {items : List Item}
    (clean : ((ofItems eof items).tree anchor).hasError = false) :
    Spells Item.IsClean (rule * star rule + star item) items := by
  rw [hasError_tree] at clean
  apply spells_add.mpr
  by_cases starts : BusinessRule.startsAt items
  case neg =>
    simp only [ofItems, if_neg starts] at clean
    rw [Scenarios.hasError_tree] at clean
    exact .inr (Scenarios.spells_entriesOf clean)
  case pos =>
    simp only [ofItems, if_pos starts] at clean
    cases found : BusinessRule.take? eof items with
    | none => simp [BusinessRule.take?_eq_none.mp found] at starts
    | some taken =>
      obtain ⟨r, rest⟩ := taken
      rw [BusinessRule.entriesOf_of_some found, List.any_cons, Bool.or_eq_false_iff] at clean
      have whole := (BusinessRule.spells_of_take? found clean.1).mul
        (BusinessRule.spells_entriesOf (BusinessRule.startsAt_of_take? found) clean.2)
      rw [BusinessRule.items_of_take? found] at whole
      exact .inl whole

end FeatureFile
