import FeatureFile.Proofs.Descent.LineReading
import FeatureFile.Proofs.Document.Flat
import FeatureFile.Proofs.Tree.Steps

namespace FeatureFile

open Ahead (peek)
open Item (kindOffTags nextKind startOf)

namespace Heading

lemma kindOffTags_of_kind? {items : List Item} {k : TokenKind} (h : kind? items = some k) :
    kindOffTags items = k ∧ k.isHeader := by
  induction items with
  | nil => cases h
  | cons i items ih =>
    cases i with
    | block b => cases h
    | line l =>
      rw [kind?] at h
      rw [kindOffTags]
      change (if l.kind = _ then _ else l.kind) = k ∧ _
      split at h
      case isTrue tags => rw [if_pos tags]; exact ih h
      case isFalse other =>
        obtain ⟨header, same⟩ := Option.ite_none_right_eq_some.mp h
        obtain rfl := Option.some.inj same
        exact ⟨if_neg other, header⟩

lemma kind?_of_isHeader {items : List Item} (lexed : ∀ i ∈ items, i.IsLexed)
    (header : (kindOffTags items).isHeader) : kind? items = some (kindOffTags items) := by
  induction items with
  | nil => cases header
  | cons i items ih =>
    obtain ⟨first, others⟩ := List.forall_mem_cons.mp lexed
    cases i with
    | block b =>
      rw [kindOffTags, first.kind_block] at header
      cases header
    | line l =>
      rw [kindOffTags] at header ⊢
      change TokenKind.isHeader (if l.kind = _ then _ else l.kind) = true at header
      change kind? _ = some (if l.kind = _ then _ else l.kind)
      rw [kind?]
      by_cases tags : l.kind = .atSign
      · rw [if_pos tags] at header ⊢
        rw [if_pos tags]
        exact ih others header
      · rw [if_neg tags] at header ⊢
        rw [if_neg tags, if_pos header]

lemma kindOffTags_of_take? {items below : List Item} {h : Heading}
    (found : take? items = some (h, below)) : kindOffTags items = h.kind := by
  have kind := kind?_eq items
  rw [found, Option.map_some] at kind
  exact (kindOffTags_of_kind? kind).1

lemma exists_take? {items : List Item} (lexed : ∀ i ∈ items, i.IsLexed)
    (header : (kindOffTags items).isHeader) :
    ∃ h below, take? items = some (h, below) ∧ h.kind = kindOffTags items := by
  have kind := kind?_of_isHeader lexed header
  rw [kind?_eq] at kind
  obtain ⟨⟨h, below⟩, found, same⟩ := Option.map_eq_some_iff.mp kind
  exact ⟨h, below, found, same⟩

end Heading

lemma TokenKind.isHeader_of_isExamples {k : TokenKind} (h : k.isExamples) : k.isHeader := by
  cases k <;> first | rfl | cases h

lemma TokenKind.isBody_of_isStep {k : TokenKind} (h : k.isStep) : k.isBody := by
  cases k <;> first | rfl | cases h

lemma Item.IsLexed.kind_ne_eof {i : Item} (lexed : i.IsLexed) : i.kind ≠ .eof := by
  intro kind
  cases i with
  | line l =>
    have inline := lexed.1.isWhole.inline l.head List.mem_cons_self
    rw [show l.head.kind = .eof from kind] at inline
    cases inline
  | block b =>
    rw [lexed.kind_block] at kind
    cases kind

lemma Item.standsApart_of_not_isBody {items : List Item} (lexed : ∀ i ∈ items, i.IsLexed)
    (stop : ∀ i ∈ items.head?, i.kind.isBody = false) : StandsApart items := by
  rcases items with _ | ⟨l | b, items⟩
  · exact .nil
  · have other : l.kind.isBody = false := stop _ rfl
    refine .cons (fun fence => ?_) (fun bar => ?_) items
    · rw [fence] at other
      cases other
    · rw [bar] at other
      cases other
  · have other := stop _ rfl
    rw [(lexed _ List.mem_cons_self).kind_block] at other
    cases other

lemma Step.take_takeWhile {l : Line} {items : List Item} (word : l.kind.isStep)
    (lexed : ∀ i ∈ items, i.IsLexed) :
    (take l items).1 = (take l (items.takeWhile (·.kind.isBody))).1 ∧
      (take l items).2.takeWhile (·.kind.isBody) =
        (take l (items.takeWhile (·.kind.isBody))).2 ∧
      (take l items).2.dropWhile (·.kind.isBody) = items.dropWhile (·.kind.isBody) := by
  have own : ∀ i ∈ items.takeWhile (·.kind.isBody), i.kind.isBody :=
    fun _ hi => List.mem_takeWhile_imp (p := fun i : Item => i.kind.isBody) hi
  have stop : ∀ i ∈ (items.dropWhile (·.kind.isBody)).head?, i.kind.isBody = false := by
    intro i hi
    have dropped := List.head?_dropWhile_not (fun i : Item => i.kind.isBody) items
    rw [Option.mem_def.mp hi] at dropped
    simpa using dropped
  have cut : items = items.takeWhile (·.kind.isBody) ++ items.dropWhile (·.kind.isBody) :=
    List.takeWhile_append_dropWhile.symm
  have behind : ∀ i ∈ items.dropWhile (·.kind.isBody), i.IsLexed :=
    fun i hi => lexed i ((List.dropWhile_suffix _).subset hi)
  generalize items.takeWhile (·.kind.isBody) = front at own cut ⊢
  generalize items.dropWhile (·.kind.isBody) = back at stop cut behind ⊢
  subst cut
  have left : ∀ i ∈ (take l front).2, i.kind.isBody := by
    intro i hi
    have mem : i ∈ (take l front).1.items ++ (take l front).2 := List.mem_append_right _ hi
    rw [items_take] at mem
    rcases List.mem_cons.mp mem with rfl | mem
    · exact TokenKind.isBody_of_isStep word
    · exact own i mem
  obtain ⟨kept, dropped⟩ := Reader.split_append left stop
  rw [(Item.standsApart_of_not_isBody behind stop).take_append l front]
  exact ⟨rfl, kept, dropped⟩

namespace BusinessRule

variable {items : List Item}

lemma startsAt_iff_kindOffTags (lexed : ∀ i ∈ items, i.IsLexed) :
    startsAt items ↔ kindOffTags items = .header .rule := by
  rw [startsAt_iff]
  constructor
  · exact fun kind => (Heading.kindOffTags_of_kind? kind).1
  · intro kind
    have header : (kindOffTags items).isHeader := by
      rw [kind]
      rfl
    rw [Heading.kind?_of_isHeader lexed header, kind]

lemma startsAt_of_suffix {own : List Item} (some : own ≠ [])
    (suffix : own <:+ (untilNext items).1) :
    startsAt (own ++ (untilNext items).2) = false := by
  induction items with
  | nil => exact absurd (List.suffix_nil.mp suffix) some
  | cons i items ih =>
    cases start : startsAt (i :: items) with
    | true =>
      rw [untilNext, if_pos start] at suffix
      exact absurd (List.suffix_nil.mp suffix) some
    | false =>
      simp only [untilNext, start, Bool.false_eq_true, if_false] at suffix ⊢
      rcases List.suffix_cons_iff.mp suffix with rfl | deeper
      · rw [List.cons_append, append_untilNext]
        exact start
      · exact ih deeper

end BusinessRule

lemma Item.IsSeam.scenario_or_end {rest : List Item} (seam : IsSeam rest) (eof : Mark) {i : Item}
    {items : List Item} (last : rest = [] ∨ IsSealed (i :: items)) :
    Scenario.take? eof (i :: items ++ rest) =
      (Scenario.take? (startOf eof rest) (i :: items)).map
        fun (s, below) => (s, below ++ rest) := by
  rcases last with rfl | last
  · simp [startOf]
  · exact seam.scenario eof last

namespace Reader

variable {α : Type} {eof : Token} {items rest : List Item} {a : α}

lemma gives_onlyIf {look : List Token → Bool} {x : Reader (Option α)} {a : Option α}
    (here : ∀ left, Holds eof left items → look left) (h : x.Gives eof items a rest) :
    (onlyIf look x).Gives eof items a rest := by
  intro left held
  rw [read_onlyIf x (here left held)]
  exact h left held

lemma gives_onlyIf_not {look : List Token → Bool} (x : Reader (Option α))
    (other : ∀ left, Holds eof left items → look left = false) :
    (onlyIf look x).Gives eof items none items := by
  intro left held
  rw [read_onlyIf_not x (other left held)]
  exact ⟨rfl, held⟩

lemma gives_entry {begins : List Token → Bool} {member : Reader (Option α)}
    (here : ∀ left, Holds eof left items → begins left)
    (h : member.Gives eof items (some a) rest) :
    (entry begins member).Gives eof items (some (.placed a)) rest := by
  refine .bind (.ask fun left held => here left held) ?_
  rw [if_pos rfl]
  exact h.map _

lemma gives_stray {begins : List Token → Bool} {i : Item} (member : Reader (Option α))
    (other : ∀ left, Holds eof left (i :: items) → begins left = false) :
    (entry begins member).Gives eof (i :: items) (some (.stray i)) items := by
  refine .bind (.ask fun left held => other left held) ?_
  rw [if_neg (by simp)]
  exact (gives_nextItem i items).map _

lemma gives_heading {h : Heading} (found : Heading.take? items = some (h, rest)) :
    heading.Gives eof items (some h) rest := by
  obtain ⟨below, signs, -, prose⟩ := Heading.take?_eq_some.mp found
  have front : tags.run.Gives eof items _ _ := gives_tags items
  have text : description.run.Gives eof below _ _ := gives_description below
  rw [signs] at front
  rw [prose] at text
  refine (front.bind (gives_nextLine.bind (text.map _))).congr ?_
  simp [reduceOption_map_some]

lemma gives_takeBlock (items : List Item) :
    (onlyIf (peek · = .fence) docString).Gives eof items (Step.takeBlock items).1
      (Step.takeBlock items).2 := by
  refine .of_isLexed fun lexed => ?_
  cases items with
  | nil => exact gives_onlyIf_not _ fun left here => by simp [here.peek]
  | cons i items =>
    cases i with
    | line l =>
      have plain := (lexed _ List.mem_cons_self).2
      exact gives_onlyIf_not _ fun left here => by simp [here.peek, plain]
    | block b =>
      have fence : b.IsLexed := lexed _ List.mem_cons_self
      exact gives_onlyIf (fun left here => by simp [here.peek, Item.nextKind_block fence])
        gives_docString

lemma gives_step (l : Line) (items : List Item) :
    step.Gives eof (.line l :: items) (some (Step.take l items).1) (Step.take l items).2 := by
  refine (gives_nextLine.bind ((gives_takeBlock items).bind ((gives_rows _).map _))).congr ?_
  simp [reduceOption_map_some, Step.take]

lemma gives_stepEntries (items : List Item) :
    stepEntries.run.Gives eof items
      ((Steps.entriesOf (items.takeWhile (·.kind.isBody))).map some)
      (items.dropWhile (·.kind.isBody)) := by
  have goes {items : List Item} (left : List Token) (here : Holds eof left items) :
      stepEntries.goes left = (nextKind items).isBody := by
    rw [← here.peek]
    rfl
  have begins {items : List Item} (left : List Token) (here : Holds eof left items) :
      (peek left).isStep = (nextKind items).isStep := by
    rw [here.peek]
  induction items using Steps.entriesOf.induct with
  | case1 =>
    rw [List.takeWhile_nil, List.dropWhile_nil, Steps.entriesOf]
    exact Loop.gives_of_stops fun left here => goes left here
  | case2 b items ih =>
    refine .of_isLexed fun lexed => ?_
    have first : b.IsLexed := lexed _ List.mem_cons_self
    have fence := Item.nextKind_block first items
    have body : (Item.block b).kind.isBody := by
      rw [show (Item.block b).kind = .fence from fence]
      rfl
    rw [List.takeWhile_cons_of_pos (by exact body), List.dropWhile_cons_of_pos (by exact body),
      Steps.entriesOf]
    refine Loop.gives_of_goes (fun left here => ?_) (gives_stray _ fun left here => ?_) ih
    · rw [goes left here, fence]
      rfl
    · rw [begins left here, fence]
      rfl
  | case3 l items word ih =>
    refine .of_isLexed fun lexed => ?_
    have body : l.kind.isBody := TokenKind.isBody_of_isStep word
    rw [List.takeWhile_cons_of_pos (by exact body), List.dropWhile_cons_of_pos (by exact body),
      Steps.entriesOf, if_pos word]
    obtain ⟨taken, inner, behind⟩ := Step.take_takeWhile word fun i hi =>
      lexed i (List.mem_cons_of_mem _ hi)
    rw [inner, behind] at ih
    refine Loop.gives_of_goes (fun left here => ?_)
      (gives_entry (fun left here => ?_) ((gives_step l items).congr (congrArg some taken))) ih
    · rw [goes left here]
      exact body
    · rw [begins left here]
      exact word
  | case4 l items other ih =>
    cases body : (Item.line l).kind.isBody with
    | true =>
      rw [List.takeWhile_cons_of_pos (by exact body), List.dropWhile_cons_of_pos (by exact body),
        Steps.entriesOf, if_neg other]
      refine Loop.gives_of_goes (fun left here => ?_) (gives_stray _ fun left here => ?_) ih
      · rw [goes left here]
        exact body
      · rw [begins left here]
        exact Bool.eq_false_iff.mpr other
    | false =>
      rw [List.takeWhile_cons_of_neg (by simpa using body),
        List.dropWhile_cons_of_neg (by simpa using body), Steps.entriesOf]
      exact Loop.gives_of_stops fun left here => (goes left here).trans body

lemma gives_steps (items : List Item) :
    steps.Gives eof items (Steps.take (startOf eof.start items) items).1
      (Steps.take (startOf eof.start items) items).2 :=
  (gives_anchor.bind ((gives_stepEntries items).map _)).congr
    (by simp [reduceOption_map_some, Steps.take])

lemma gives_examples {e : Examples} (found : Examples.take? items = some (e, rest)) :
    examples.Gives eof items (some e) rest := by
  obtain ⟨below, heading, -, bars⟩ := Examples.take?_eq_some.mp found
  have table : rows.run.Gives eof below _ _ := gives_rows below
  rw [bars] at table
  exact ((gives_heading heading).bind (table.map _)).congr (by simp [reduceOption_map_some])

lemma gives_examplesBelow (items : List Item) :
    examplesBelow.run.Gives eof items ((Examples.takeAll items).1.map some)
      (Examples.takeAll items).2 := by
  have goes {items : List Item} (left : List Token) (here : Holds eof left items) :
      examplesBelow.goes left = (kindOffTags items).isExamples := by
    rw [← here.peekBehindTags]
    rfl
  induction items using Examples.takeAll.induct with
  | case1 items none =>
    refine .of_isLexed fun lexed => ?_
    rw [Examples.takeAll_of_none none]
    refine Loop.gives_of_stops fun left here => ?_
    rw [goes left here, Bool.eq_false_iff]
    intro more
    obtain ⟨h, below, found, kind⟩ :=
      Heading.exists_take? lexed (TokenKind.isHeader_of_isExamples more)
    rw [Examples.take?, Heading.takeSection, found] at none
    simp [kind, more] at none
  | case2 items e below found ih =>
    rw [Examples.takeAll_of_some found]
    refine Loop.gives_of_goes (fun left here => ?_) (gives_examples found) ih
    obtain ⟨text, heading, kind, -⟩ := Examples.take?_eq_some.mp found
    rw [goes left here, Heading.kindOffTags_of_take? heading]
    exact kind

lemma gives_scenario {s : Scenario} (found : Scenario.take? eof.start items = some (s, rest)) :
    scenario.Gives eof items (some s) rest := by
  obtain ⟨h, below, heading, -, whole⟩ := Heading.takeSection_eq_some.mp found
  obtain ⟨rfl, rfl⟩ := Prod.mk.inj whole
  exact ((gives_heading heading).bind ((gives_steps below).bind
    ((gives_examplesBelow _).map _))).congr (by rw [reduceOption_map_some]; rfl)

lemma gives_background (items : List Item) :
    background?.Gives eof items (Background.take eof.start items).1
      (Background.take eof.start items).2 := by
  refine .of_isLexed fun lexed => ?_
  rcases items with _ | ⟨l | b, items⟩
  · exact gives_onlyIf_not _ fun left here => by simp [here.peek]
  · rw [Background.take]
    by_cases header : l.kind = .header .background
    · rw [if_pos header]
      refine gives_onlyIf (fun left here => by simp [here.peek, header]) ?_
      refine (gives_nextLine.bind ((gives_description items).bind ((gives_steps _).map _))).congr ?_
      rw [reduceOption_map_some]
      rfl
    · rw [if_neg header]
      exact gives_onlyIf_not _ fun left here => by simp [here.peek, header]
  · have fence : b.IsLexed := lexed _ List.mem_cons_self
    exact gives_onlyIf_not _ fun left here => by simp [here.peek, Item.nextKind_block fence]

lemma goes_scenarioEntries {scope : Scope} {left : List Token} {i : Item}
    (here : Holds eof left (i :: items))
    (other : scope = .rule → BusinessRule.startsAt (i :: items) = false) :
    (scenarioEntries scope).goes left := by
  have lexed := here.isLexed
  have ahead := here.peekBehindTags
  simp only [scenarioEntries]
  split
  case h_1 none =>
    rw [ahead, Item.kindOffTags] at none
    refine decide_eq_true (here.peek.trans ?_)
    by_contra sign
    rw [if_neg (by exact sign)] at none
    exact (lexed i List.mem_cons_self).kind_ne_eof none
  case h_2 rule =>
    refine decide_eq_true fun same => ?_
    rw [ahead, ← BusinessRule.startsAt_iff_kindOffTags lexed, other same] at rule
    cases rule
  case h_3 => rfl

lemma gives_scenarioEntries {scope : Scope} (seam : Item.IsSeam rest)
    (stops : ∀ left, Holds eof left rest → (scenarioEntries scope).goes left = false)
    (last : rest = [] ∨ Item.IsSealed items)
    (plain : scope = .rule → ∀ own, own ≠ [] → own <:+ items →
      BusinessRule.startsAt (own ++ rest) = false) :
    (scenarioEntries scope).run.Gives eof (items ++ rest)
      ((Scenarios.entriesOf (startOf eof.start rest) items).map some) rest := by
  induction items using Scenarios.entriesOf.induct (startOf eof.start rest) with
  | case1 =>
    rw [List.nil_append, Scenarios.entriesOf]
    exact Loop.gives_of_stops stops
  | case2 i items s below found ih =>
    have cut := Scenario.items_of_take? found
    have taken := Item.IsSeam.scenario_or_end seam eof.start last
    rw [found, Option.map_some] at taken
    obtain ⟨h, text, heading, kind, -⟩ := Heading.takeSection_eq_some.mp taken
    have suffix : below <:+ i :: items := ⟨s.items, cut⟩
    have left : rest = [] ∨ Item.IsSealed below := by
      rw [← cut] at last
      exact last.imp_right fun sealed => sealed.of_append
    rw [Scenarios.entriesOf_of_some found]
    refine Loop.gives_of_goes
      (fun left here => goes_scenarioEntries here fun rule =>
        plain rule _ (by simp) List.suffix_rfl)
      (gives_entry (fun left here => ?_) (gives_scenario taken))
      (ih left fun rule own some inner => plain rule own some (inner.trans suffix))
    rw [here.peekBehindTags, Heading.kindOffTags_of_take? heading]
    exact kind
  | case3 i items none ih =>
    refine .of_isLexed fun lexed => ?_
    have taken := Item.IsSeam.scenario_or_end seam eof.start last
    rw [none, Option.map_none] at taken
    rw [Scenarios.entriesOf_of_none none]
    refine Loop.gives_of_goes
      (fun left here => goes_scenarioEntries here fun rule =>
        plain rule _ (by simp) List.suffix_rfl)
      (gives_stray _ fun left here => ?_)
      (ih (last.imp_right Item.IsSealed.tail) fun rule own some inner =>
        plain rule own some (inner.trans (List.suffix_cons i items)))
    rw [here.peekBehindTags, Bool.eq_false_iff]
    intro more
    obtain ⟨h, below, found, kind⟩ :=
      Heading.exists_take? lexed (TokenKind.isHeader_of_isScenario more)
    rw [List.cons_append] at found kind taken
    simp only [Scenario.take?, Heading.takeSection, found, kind, reduceCtorEq,
      ite_eq_right_iff] at taken
    exact taken more

lemma goes_scenarioEntries_nil (scope : Scope) {left : List Token} (here : Holds eof left []) :
    (scenarioEntries scope).goes left = false := by
  simp [scenarioEntries, here.peekBehindTags, Item.kindOffTags, here.peek]

lemma gives_scenarios (items : List Item) :
    (scenarios .feature).Gives eof items (Scenarios.ofItems eof.start items) [] := by
  have entries : (scenarioEntries .feature).run.Gives eof (items ++ []) _ [] :=
    gives_scenarioEntries (.inl rfl) (fun _ => goes_scenarioEntries_nil _) (.inl rfl) (fun rule => by cases rule)
  rw [List.append_nil] at entries
  refine (gives_anchor.bind (entries.map _)).congr ?_
  rw [reduceOption_map_some]
  rfl

lemma gives_scenarios_of_rule (items : List Item) :
    (scenarios .rule).Gives eof items
      (Scenarios.ofItems (startOf eof.start (BusinessRule.untilNext items).2)
        (BusinessRule.untilNext items).1)
      (BusinessRule.untilNext items).2 := by
  have next := BusinessRule.startsAt_untilNext items
  have entries : (scenarioEntries .rule).run.Gives eof _ _ _ := gives_scenarioEntries
    (BusinessRule.isSeam_of_startsAt next) (fun left here => ?_)
    (next.imp_right fun start => BusinessRule.isSealed_untilNext items start)
    (fun _ own some suffix => BusinessRule.startsAt_of_suffix some suffix)
  · have anchor : anchor.Gives eof items _ items := gives_anchor
    have cut := BusinessRule.append_untilNext items
    rw [cut] at entries
    have start : startOf eof.start items =
        startOf (startOf eof.start (BusinessRule.untilNext items).2)
          (BusinessRule.untilNext items).1 := by
      conv_lhs => rw [← cut, Item.startOf_append]
    rw [start] at anchor
    refine (anchor.bind (entries.map _)).congr ?_
    rw [reduceOption_map_some]
    rfl
  · rcases next with none | start
    · rw [none] at here
      exact goes_scenarioEntries_nil _ here
    · have rule := (BusinessRule.startsAt_iff_kindOffTags here.isLexed).mp start
      simp [scenarioEntries, here.peekBehindTags, rule]

lemma gives_rule {r : BusinessRule} (found : BusinessRule.take? eof.start items = some (r, rest)) :
    rule.Gives eof items (some r) rest := by
  obtain ⟨h, below, heading, -, whole⟩ := Heading.takeSection_eq_some.mp found
  obtain ⟨rfl, rfl⟩ := Prod.mk.inj whole
  exact (gives_heading heading).bind ((gives_background below).bind
    ((gives_scenarios_of_rule _).map _))

lemma gives_ruleEntries (start : items = [] ∨ BusinessRule.startsAt items) :
    ruleEntries.run.Gives eof items ((BusinessRule.entriesOf eof.start items).map some) [] := by
  have goes {items : List Item} (left : List Token) (here : Holds eof left items) :
      ruleEntries.goes left = decide (kindOffTags items ≠ .eof) := by
    rw [← here.peekBehindTags]
    rfl
  refine BusinessRule.row_induction eof.start
    (motive := fun items => ruleEntries.run.Gives eof items
      ((BusinessRule.entriesOf eof.start items).map some) []) ?_
    (fun items r below found ih => ?_) start
  · rw [BusinessRule.entriesOf]
    exact Loop.gives_of_stops fun left here => goes left here
  · obtain ⟨h, text, heading, kind, -⟩ := Heading.takeSection_eq_some.mp found
    have ahead : kindOffTags items = .header .rule :=
      (Heading.kindOffTags_of_take? heading).trans (of_decide_eq_true kind)
    rw [BusinessRule.entriesOf_of_some found]
    refine Loop.gives_of_goes (fun left here => ?_)
      (gives_entry (fun left here => ?_) (gives_rule found)) ih
    · rw [goes left here, ahead]
      rfl
    · rw [here.peekBehindTags]
      exact decide_eq_true ahead

lemma gives_content (items : List Item) :
    content.Gives eof items (Content.ofItems eof.start items) [] := by
  refine .of_isLexed fun lexed => ?_
  have same := BusinessRule.startsAt_iff_kindOffTags lexed
  refine .bind .peekBehindTags ?_
  rw [Content.ofItems]
  by_cases start : BusinessRule.startsAt items
  · rw [if_pos (same.mp start), if_pos start]
    exact ((gives_ruleEntries (.inr start)).map _).congr
      (congrArg Content.rules (reduceOption_map_some _))
  · rw [if_neg (mt same.mpr start), if_neg start]
    exact (gives_scenarios items).map _

lemma gives_body (o : Opening) (items : List Item) :
    (body o).Gives eof items
      ⟨o, startOf eof.start items, (Background.take eof.start items).1,
        Content.ofItems eof.start (Background.take eof.start items).2⟩ [] :=
  gives_anchor.bind ((gives_background items).bind ((gives_content _).map _))

end Reader

end FeatureFile
