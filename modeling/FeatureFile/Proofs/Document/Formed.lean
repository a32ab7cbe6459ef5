import FeatureFile.Document.Remarks
import FeatureFile.Proofs.Document.Lexed
import FeatureFile.Proofs.Document.OpenFence

namespace FeatureFile

def Entry.All {α : Type} (member : α → Prop) (other : Item → Prop) : Entry α → Prop
  | placed a => member a
  | stray i => other i

structure Step.IsFormed (s : Step) : Prop where
  line : s.line.kind.isStep
  rows : ∀ l ∈ s.rows, l.kind = .pipe

def Steps.IsFormed (s : Steps) : Prop :=
  ∀ e ∈ s.entries, e.All Step.IsFormed Item.IsAside

structure Examples.IsFormed (e : Examples) : Prop where
  heading : e.heading.IsFormed
  kind : e.heading.kind.isExamples
  rows : ∀ l ∈ e.rows, l.kind = .pipe

structure Scenario.IsFormed (s : Scenario) : Prop where
  heading : s.heading.IsFormed
  kind : s.heading.kind.isScenario
  steps : s.steps.IsFormed
  examples : ∀ e ∈ s.examples, e.IsFormed

def Scenarios.IsFormed (s : Scenarios) : Prop :=
  ∀ e ∈ s.entries, e.All Scenario.IsFormed (·.kind.isScenario = false)

structure Background.IsFormed (b : Background) : Prop where
  heading : b.heading.IsFormed
  kind : b.heading.kind = .header .background
  tags : b.heading.tags = []
  steps : b.steps.IsFormed

structure BusinessRule.IsFormed (r : BusinessRule) : Prop where
  heading : r.heading.IsFormed
  kind : r.heading.kind = .header .rule
  background : ∀ b ∈ r.background, b.IsFormed
  scenarios : r.scenarios.IsFormed
  own : ∀ i ∈ r.scenarios.items, i.kind ≠ .header .rule

def Content.IsFormed : Content → Prop
  | scenarios s => s.IsFormed
  | rules es => es ≠ [] ∧ ∀ e ∈ es, e.All BusinessRule.IsFormed fun _ => False

def TokenKind.isSection (k : TokenKind) : Bool :=
  k.isHeader && !k.isExamples

structure Feature.IsFormed (f : Feature) : Prop where
  junk : ∀ l ∈ f.opening.junk, ∀ t ∈ l.tokens, t.kind.isSection = false
  heading : ∀ h ∈ f.opening.heading, h.IsFormed ∧ h.kind = .header .feature
  background : ∀ b ∈ f.background, b.IsFormed
  content : f.content.IsFormed

variable {items rest : List Item}

namespace Line

lemma isInner_of_mem_tail {l : RawLine} {found : Line} {inside : Bool}
    (shape : Lexeme.Shape inside l.shape) (h : l.significant? = some found) :
    ∀ t ∈ found.tail, t.kind.isInner := by
  have dropped := l.dropWhile_body
  rw [dropWhile_of_significant? h] at dropped
  cases body : l.body with
  | nil => simp [body] at dropped
  | cons u rest =>
    have sub : found.tail ⊆ rest := by
      rw [body] at dropped
      cases trivia : u.kind.isTrivia with
      | true =>
        rw [List.dropWhile_cons_of_pos (by simp [trivia])] at dropped
        have suffix := List.dropWhile_suffix (fun t : Token => t.kind.isTrivia) (l := rest)
        exact fun t ht => suffix.subset (dropped ▸ List.mem_cons_of_mem _ ht)
      | false =>
        rw [List.dropWhile_cons_of_neg (by simp [trivia])] at dropped
        exact (List.cons.inj dropped).2 ▸ List.Subset.refl _
    rw [RawLine.shape, body, List.map_cons] at shape
    exact fun t ht => shape.isInner _ (List.mem_map_of_mem (sub ht))

lemma isSection_of_significant? {l : RawLine} {found : Line} {inside : Bool} (closed : l.IsClosed)
    (shape : Lexeme.Shape inside l.shape) (h : l.significant? = some found)
    (first : found.kind.isSection = false) : ∀ t ∈ found.tokens, t.kind.isSection = false := by
  refine List.forall_mem_append.mpr ⟨List.forall_mem_cons.mpr ⟨first, fun t ht => ?_⟩, fun t ht => ?_⟩
  · have inner := isInner_of_mem_tail shape h t ht
    cases kind : t.kind <;> simp_all [TokenKind.isInner, TokenKind.isKeyword, TokenKind.isHeader,
      TokenKind.isSection]
  · rw [ending_of_significant? h] at ht
    simp [closed.ending t (by simpa using ht), TokenKind.isSection, TokenKind.isHeader]

end Line

lemma Item.IsLexed.kind_block {b : Block} (h : (Item.block b).IsLexed) :
    (Item.block b).kind = .fence :=
  Block.IsLexed.fence h

lemma Steps.all_entriesOf (body : ∀ i ∈ items, i.kind.isBody) :
    ∀ e ∈ entriesOf items, e.All Step.IsFormed Item.IsAside := by
  induction items using entriesOf.induct with
  | case1 => simp [entriesOf]
  | case2 b rest ih =>
    obtain ⟨first, others⟩ := List.forall_mem_cons.mp body
    rw [entriesOf]
    exact List.forall_mem_cons.mpr ⟨⟨first, by simp⟩, ih others⟩
  | case3 l rest step ih =>
    have formed : (Step.take l rest).1.IsFormed :=
      ⟨step, fun r hr => of_decide_eq_true (Item.wanted_of_mem_takeLines r hr)⟩
    have below : ∀ i ∈ (Step.take l rest).2, i.kind.isBody := by
      intro i hi
      have mem : i ∈ (Step.take l rest).1.items ++ (Step.take l rest).2 :=
        List.mem_append_right _ hi
      exact body i (Step.items_take l rest ▸ mem)
    rw [entriesOf, if_pos step]
    exact List.forall_mem_cons.mpr ⟨formed, ih below⟩
  | case4 l rest other ih =>
    obtain ⟨first, others⟩ := List.forall_mem_cons.mp body
    rw [entriesOf, if_neg other]
    have aside : (Item.line l).IsAside := ⟨first, by rintro _ ⟨⟩; simpa using other⟩
    exact List.forall_mem_cons.mpr ⟨aside, ih others⟩

lemma Steps.isFormed_take (anchor : Mark) (items : List Item) : (take anchor items).1.IsFormed :=
  all_entriesOf fun _ hi => List.mem_takeWhile_imp (p := fun i : Item => i.kind.isBody) hi

namespace Examples

lemma isFormed_of_take? {e : Examples} (found : take? items = some (e, rest)) : e.IsFormed := by
  obtain ⟨below, heading, kind, rows⟩ := take?_eq_some.mp found
  refine ⟨Heading.isFormed_of_take? heading, kind, ?_⟩
  have pipes : ∀ l ∈ (Step.takeRows below).1, decide (l.kind = .pipe) := Item.wanted_of_mem_takeLines
  rw [rows] at pipes
  simpa using pipes

lemma isFormed_of_mem_takeAll (items : List Item) : ∀ e ∈ (takeAll items).1, e.IsFormed := by
  induction items using takeAll.induct with
  | case1 items found => simp [takeAll_of_none found]
  | case2 items e rest found ih =>
    rw [takeAll_of_some found]
    exact List.forall_mem_cons.mpr ⟨isFormed_of_take? found, ih⟩

end Examples

lemma Scenario.isFormed_of_take? {eof : Mark} {s : Scenario}
    (found : take? eof items = some (s, rest)) : s.IsFormed := by
  obtain ⟨h, below, heading, kind, whole⟩ := Heading.takeSection_eq_some.mp found
  obtain ⟨rfl, -⟩ := Prod.mk.inj whole
  exact ⟨Heading.isFormed_of_take? heading, kind, Steps.isFormed_take _ _,
    Examples.isFormed_of_mem_takeAll _⟩

namespace Heading

lemma take?_cons_header {l : Line} (header : l.kind.isHeader) (items : List Item) :
    take? (.line l :: items) = some (⟨[], l, (Item.takeLines TokenKind.isProse items).1⟩,
      (Item.takeLines TokenKind.isProse items).2) := by
  have untagged : l.kind ≠ .atSign := by
    intro sign
    simp [sign, TokenKind.isHeader] at header
  simp [take?, Item.takeLines, untagged, header]

end Heading

lemma TokenKind.isHeader_of_isScenario {k : TokenKind} (h : k.isScenario) : k.isHeader := by
  cases k <;> first | rfl | cases h

lemma Scenario.kind_of_take?_none {eof : Mark} {i : Item} (lexed : i.IsLexed)
    (none : take? eof (i :: items) = none) : i.kind.isScenario = false := by
  cases i with
  | block b =>
    rw [lexed.kind_block]
    rfl
  | line l =>
    rw [Bool.eq_false_iff]
    intro scenario
    have kind : l.kind.isScenario := scenario
    rw [take?, Heading.takeSection, Heading.take?_cons_header (TokenKind.isHeader_of_isScenario kind)] at none
    simp [Heading.kind, kind] at none

lemma Scenarios.all_entriesOf (eof : Mark) (lexed : ∀ i ∈ items, i.IsLexed) :
    ∀ e ∈ entriesOf eof items, e.All Scenario.IsFormed (·.kind.isScenario = false) := by
  induction items using entriesOf.induct eof with
  | case1 => simp [entriesOf]
  | case2 i items s rest found ih =>
    have below : ∀ i ∈ rest, i.IsLexed := by
      rw [← Scenario.items_of_take? found] at lexed
      exact (List.forall_mem_append.mp lexed).2
    rw [entriesOf_of_some found]
    exact List.forall_mem_cons.mpr ⟨Scenario.isFormed_of_take? found, ih below⟩
  | case3 i items found ih =>
    obtain ⟨first, others⟩ := List.forall_mem_cons.mp lexed
    rw [entriesOf_of_none found]
    exact List.forall_mem_cons.mpr ⟨Scenario.kind_of_take?_none first found, ih others⟩

lemma Scenarios.items_ofItems (eof : Mark) (items : List Item) : (ofItems eof items).items = items :=
  items_entriesOf eof items

lemma Background.isFormed_of_mem_take (eof : Mark) (items : List Item) :
    ∀ b ∈ (take eof items).1, b.IsFormed := by
  unfold take
  split
  case h_2 => simp
  case h_1 l rest =>
    split
    case isFalse => simp
    case isTrue kind =>
      have header : l.kind.isHeader := by simp [kind, TokenKind.isHeader]
      rintro b ⟨⟩
      exact ⟨⟨by simp, header, Item.wanted_of_mem_takeLines⟩, kind, rfl, Steps.isFormed_take _ _⟩

namespace BusinessRule

lemma startsAt_cons_rule {l : Line} (rule : l.kind = .header .rule) (items : List Item) :
    startsAt (.line l :: items) := by
  have header : l.kind.isHeader := by simp [rule, TokenKind.isHeader]
  simp [startsAt, Heading.take?_cons_header header, Heading.kind, rule]

lemma kind_of_mem_untilNext (lexed : ∀ i ∈ items, i.IsLexed) :
    ∀ i ∈ (untilNext items).1, i.kind ≠ .header .rule := by
  induction items with
  | nil => simp [untilNext]
  | cons i rest ih =>
    obtain ⟨first, others⟩ := List.forall_mem_cons.mp lexed
    rw [untilNext]
    split
    case isTrue => simp
    case isFalse other =>
      refine List.forall_mem_cons.mpr ⟨?_, ih others⟩
      cases i with
      | block b => simp [first.kind_block]
      | line l => exact fun rule => other (startsAt_cons_rule rule rest)

lemma isFormed_ofHeading {eof : Mark} {h : Heading} (lexed : ∀ i ∈ items, i.IsLexed)
    (formed : h.IsFormed) (kind : h.kind = .header .rule) :
    (ofHeading eof h items).1.IsFormed := by
  have below : ∀ i ∈ (Background.take eof items).2, i.IsLexed := by
    rw [← Background.items_take eof items] at lexed
    exact (List.forall_mem_append.mp lexed).2
  have own : ∀ i ∈ (untilNext (Background.take eof items).2).1, i.IsLexed := by
    rw [← append_untilNext (Background.take eof items).2] at below
    exact (List.forall_mem_append.mp below).1
  refine ⟨formed, kind, Background.isFormed_of_mem_take _ _, Scenarios.all_entriesOf _ own, ?_⟩
  simpa only [ofHeading, Scenarios.items_ofItems] using kind_of_mem_untilNext below

lemma isFormed_of_take? {eof : Mark} {r : BusinessRule} (lexed : ∀ i ∈ items, i.IsLexed)
    (found : take? eof items = some (r, rest)) : r.IsFormed := by
  obtain ⟨h, below, heading, kind, whole⟩ := Heading.takeSection_eq_some.mp found
  have inner : ∀ i ∈ below, i.IsLexed := by
    rw [← Heading.items_of_take? heading] at lexed
    exact (List.forall_mem_append.mp lexed).2
  have formed : (ofHeading eof h below).1.IsFormed :=
    isFormed_ofHeading inner (Heading.isFormed_of_take? heading) (of_decide_eq_true kind)
  rwa [whole] at formed

lemma all_entriesOf (eof : Mark) (lexed : ∀ i ∈ items, i.IsLexed)
    (start : items = [] ∨ startsAt items) :
    ∀ e ∈ entriesOf eof items, e.All IsFormed fun _ => False := by
  refine row_induction eof (motive := fun items => (∀ i ∈ items, i.IsLexed) →
    ∀ e ∈ entriesOf eof items, e.All IsFormed fun _ => False) (by simp [entriesOf]) ?_ start lexed
  intro items r rest found ih lexed
  have below : ∀ i ∈ rest, i.IsLexed := by
    rw [← items_of_take? found] at lexed
    exact (List.forall_mem_append.mp lexed).2
  rw [entriesOf_of_some found]
  exact List.forall_mem_cons.mpr ⟨isFormed_of_take? lexed found, ih below⟩

end BusinessRule

lemma Content.IsFormed.rules_eq {es : List (Entry BusinessRule)} (formed : (rules es).IsFormed) :
    ∃ rs : List BusinessRule, es = rs.map .placed ∧ rs ≠ [] ∧ ∀ r ∈ rs, r.IsFormed := by
  obtain ⟨some, all⟩ := formed
  have placed : ∃ rs : List BusinessRule, es = rs.map .placed ∧ ∀ r ∈ rs, r.IsFormed := by
    clear some
    induction es with
    | nil => exact ⟨[], rfl, by simp⟩
    | cons e es ih =>
      obtain ⟨first, others⟩ := List.forall_mem_cons.mp all
      obtain ⟨rs, rfl, below⟩ := ih others
      cases e with
      | placed r => exact ⟨r :: rs, rfl, List.forall_mem_cons.mpr ⟨first, below⟩⟩
      | stray i => exact first.elim
  obtain ⟨rs, rfl, each⟩ := placed
  exact ⟨rs, rfl, by simpa using some, each⟩

lemma Content.tree_rules (anchor : Mark) (rs : List BusinessRule) :
    (rules (rs.map .placed)).tree anchor =
      .built .businessRules anchor (rs.map BusinessRule.tree) := by
  have calm : (rs.map Entry.placed).any Entry.isStray = false := by
    simp [Entry.isStray]
  rw [tree, sectionTree, calm, List.flatMap_map, List.map_eq_flatMap]
  rfl

lemma Content.remarks_rules (o : Options) (rs : List BusinessRule) :
    (rules (rs.map .placed)).remarks o = rs.flatMap (BusinessRule.remarks o) :=
  List.flatMap_map ..

lemma Content.isFormed_ofItems (eof : Mark) (lexed : ∀ i ∈ items, i.IsLexed) :
    (ofItems eof items).IsFormed := by
  rw [ofItems]
  split
  case isFalse => exact Scenarios.all_entriesOf eof lexed
  case isTrue start =>
    refine ⟨?_, BusinessRule.all_entriesOf eof lexed (.inr start)⟩
    intro none
    cases found : BusinessRule.take? eof items with
    | none => simp [BusinessRule.take?_eq_none.mp found] at start
    | some _ => simp [BusinessRule.entriesOf_of_some found] at none

namespace Opening

lemma isFormed_takeHeading (items : List Item) :
    ∀ h ∈ (takeHeading items).1, h.IsFormed ∧ h.kind = .header .feature := by
  rw [takeHeading]
  split
  case h_2 => simp
  case h_1 h below found =>
    split
    case isFalse => simp
    case isTrue kind =>
      rintro _ ⟨⟩
      exact ⟨Heading.isFormed_of_take? found, kind⟩

lemma kindBehindTags_of_ne {l : RawLine} {found : Line} (here : l.significant? = some found)
    (other : found.kind ≠ .atSign) (rest : List RawLine) :
    kindBehindTags (l :: rest) = found.kind := by
  rw [kindBehindTags_cons_some rest here, if_neg other]

lemma isSection_of_mem_skipJunk {inside : Bool} {ls : List RawLine} (scanned : Scanned inside ls) :
    ∀ l ∈ (skipJunk ls).1, ∀ t ∈ l.tokens, t.kind.isSection = false := by
  fun_induction skipJunk ls generalizing inside with
  | case1 => simp
  | case2 l rest blank ih =>
    exact ih (scanned.rest_of_stays (RawLine.turns_of_significant?_none blank))
  | case3 => simp
  | case4 l rest found here goes ih =>
    obtain _ | ⟨closed, shape, below⟩ := scanned
    refine List.forall_mem_cons.mpr ⟨?_, ih below⟩
    have first : found.kind.isSection = false := by
      by_cases tags : found.kind = .atSign
      · rw [tags]
        rfl
      · rw [kindBehindTags_of_ne here tags, endsJunk] at goes
        rw [TokenKind.isSection]
        simp_all
    exact Line.isSection_of_significant? closed shape here first

end Opening

namespace Feature

lemma isLexed_ofLines (eof : Token) {ls : List RawLine} (scanned : Scanned false ls) :
    ∀ i ∈ (ofLines eof ls).items, i.IsLexed := by
  rw [items_ofLines]
  rcases Opening.scanned_skipJunk scanned none rfl with none | ⟨below, -⟩
  · simp [none, Item.ofLines]
  · exact Item.isLexed_ofLines none below (by simp)

theorem isFormed_ofLines (eof : Token) {ls : List RawLine} (scanned : Scanned false ls) :
    (ofLines eof ls).IsFormed where
  junk := Opening.isSection_of_mem_skipJunk scanned
  heading := Opening.isFormed_takeHeading _
  background := Background.isFormed_of_mem_take _ _
  content := by
    have lexed := isLexed_ofLines eof scanned
    have content := (List.forall_mem_append.mp lexed).2
    have own : (ofLines eof ls).content.items = _ := Content.items_ofItems _ _
    rw [own] at content
    exact Content.isFormed_ofItems _ content

end Feature

end FeatureFile
