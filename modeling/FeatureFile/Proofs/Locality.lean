import FeatureFile.Proofs.Shift.Remarks
import FeatureFile.Proofs.Token.Reports
import FeatureFile.Proofs.Tree.Sections

namespace FeatureFile

open Text (IsEnded byteOrderMark)

namespace Stream

def lines (s : Stream) : List Line :=
  (RawLine.ofTokens s.content).filterMap RawLine.significant?

def items (s : Stream) : List Item :=
  Item.ofLines none (RawLine.ofTokens s.content)

end Stream

lemma RawLine.filterMap_significant?_eol {ts : List Token} (all : ∀ t ∈ ts, t.kind = .eol) :
    (ofTokens ts).filterMap significant? = [] := by
  induction ts with
  | nil => rfl
  | cons t ts ih =>
    obtain ⟨first, rest⟩ := List.forall_mem_cons.mp all
    rw [ofTokens, if_pos first, List.filterMap_cons_none rfl, ih rest]

/-- A text falls into two where a scenario begins: in front of it are whole lines that leave no doc
string open and do not end with a tag line. -/
structure IsCut (front rest : List Char) : Prop where
  ended : IsEnded front
  closed : ∀ r ∈ (Stream.ofText front).reports, r.fault ≠ .openDocString
  untagged : ∀ l ∈ (Stream.ofText front).lines.getLast?, l.kind ≠ .atSign
  begins : ∃ t ∈ (Stream.ofText rest).tokens.head?, t.kind.isScenario

instance (front rest : List Char) : Decidable (IsCut front rest) :=
  decidable_of_iff
    (IsEnded front ∧ (∀ r ∈ (Stream.ofText front).reports, r.fault ≠ .openDocString) ∧
      (∀ l ∈ (Stream.ofText front).lines.getLast?, l.kind ≠ .atSign) ∧
      ∃ t ∈ (Stream.ofText rest).tokens.head?, t.kind.isScenario)
    ⟨fun ⟨ended, closed, untagged, begins⟩ => ⟨ended, closed, untagged, begins⟩,
      fun cut => ⟨cut.ended, cut.closed, cut.untagged, cut.begins⟩⟩

lemma Stream.items_of_head? {text : List Char} {t : Token}
    (first : (ofText text).tokens.head? = some t) (inner : t.kind.isHeader) :
    ∃ l items, (ofText text).items = .line l :: items ∧ l.head = t := by
  cases content : (ofText text).content with
  | nil =>
    rw [tokens, content, List.nil_append, List.head?_cons] at first
    obtain rfl := Option.some.inj first
    cases inner
  | cons u more =>
    rw [tokens, content, List.cons_append, List.head?_cons] at first
    obtain rfl := Option.some.inj first
    have word : u.kind.isTrivia = false ∧ u.kind ≠ .fence ∧ u.kind ≠ .eol := by
      cases kind : u.kind <;> simp_all [TokenKind.isHeader, TokenKind.isTrivia]
    obtain ⟨c, ending, below, whole⟩ : ∃ c ending below,
        RawLine.ofTokens (u :: more) = ⟨u :: c, ending⟩ :: below := by
      rw [RawLine.ofTokens, if_neg word.2.2]
      cases RawLine.ofTokens more with
      | nil => exact ⟨[], none, [], rfl⟩
      | cons l ls => exact ⟨l.content, l.ending, ls, rfl⟩
    have found : RawLine.significant? ⟨u :: c, ending⟩ = some ⟨u, c, ending⟩ := by
      rw [RawLine.significant?, List.dropWhile_cons_of_neg (by simp [word.1])]
    refine ⟨⟨u, c, ending⟩, Item.ofLines none below, ?_, rfl⟩
    rw [items, content, whole]
    exact Item.ofLines_cons_line below found word.2.1

namespace Stream

variable {front rest : List Char}

lemma openFence_eq_some_iff {text : List Char} {t : Token} :
    openFence (ofText text).content = some t ↔
      ∃ b, .block b ∈ (ofText text).items ∧ b.closing = none ∧ b.opening.head = t := by
  have leaves := Item.leavesOpen_ofLines none (scanned_ofText text) t
  rw [RawLine.flatMap_tokens_ofTokens, Option.map_none, ← openFence_eq] at leaves
  exact leaves.symm

lemma closing_ne_none (closed : openFence (ofText front).content = none) :
    ∀ b, .block b ∈ (ofText front).items → b.closing ≠ none := by
  intro b hb stays
  have opened := openFence_eq_some_iff.mpr ⟨b, hb, stays, rfl⟩
  rw [closed] at opened
  cases opened

lemma items_append (some : front ≠ []) (cut : IsCut front rest)
    (unmarked : rest.head? ≠ Option.some byteOrderMark) :
    (ofText (front ++ rest)).items =
      (ofText front).items ++ (ofText rest).items.map (Item.shift (shiftBehind front)) := by
  have closed := openFence_eq_none cut.closed
  rw [items, (ofText_append some (cut.ended.parted _) closed unmarked).1,
    ofTokens_append cut.ended.endsLine, RawLine.ofTokens_shift,
    Item.ofLines_append none (closing_ne_none closed)]
  exact congrArg _ (Item.ofLines_shift (shiftBehind front) none _)

lemma isSeam_items (cut : IsCut front rest) (unmarked : rest.head? ≠ some byteOrderMark) :
    Item.IsSeam ((ofText rest).items.map (Item.shift (shiftBehind front))) ∧
      ∀ eof, Item.startOf eof ((ofText rest).items.map (Item.shift (shiftBehind front))) =
        (ofText front).stop := by
  obtain ⟨t, first, scenario⟩ := cut.begins
  have header := TokenKind.isHeader_of_isScenario scenario
  obtain ⟨l, below, items, rfl⟩ := items_of_head? first header
  have sign : l.kind ≠ .atSign := by
    intro sign
    rw [← Line.kind, sign] at header
    cases header
  rw [items]
  constructor
  · refine .inr ⟨l.kind, ?_, ?_⟩
    · exact (if_neg sign).trans (if_pos header)
    · rw [Bool.eq_false_iff]
      intro examples
      have other := TokenKind.isScenario_of_isExamples examples
      simp [Line.kind, scenario] at other
  · intro eof
    have start : (ofText rest).tokens.head?.map Token.start = some (origin rest) := by
      rw [tokens_ofText]
      exact Token.head?_start_place _ _ _ _
    rw [Option.mem_def.mp first, origin_of_unmarked unmarked, Option.map_some] at start
    rw [stop_ofText cut.ended.endsLine, ← Option.some.inj start]
    rfl

end Stream

namespace Parsed

def scenarios (p : Parsed) : List Tree :=
  p.root.descendants.filter Tree.isScenario

variable (options : Options)

lemma scenarios_parse (text : List Char) :
    (parse options text).scenarios =
      (Scenarios.membersOf (Stream.ofText text).stop (Stream.ofText text).items).map
        Scenario.tree := by
  rw [scenarios, filter_isScenario_descendants]
  exact congrArg _ (Feature.members_ofLines (Stream.ofText text).eof (scanned_ofText text))

lemma length_scenarios (text : List Char) :
    (parse options text).scenarios.length =
      ((parse options text).tokens.filter (·.kind.isScenario)).length := by
  rw [scenarios, filter_isScenario_descendants, filter_isScenario_tokens, List.length_map,
    List.length_map]

lemma scenarios_append_of_ne_nil (options : Options) {front rest : List Char} (some : front ≠ [])
    (cut : IsCut front rest) (unmarked : rest.head? ≠ Option.some byteOrderMark) :
    (parse options (front ++ rest)).scenarios =
      (parse options front).scenarios ++ (parse options rest).scenarios.map
        (Tree.shift ⟨Text.byteLength front, Text.breakCount front⟩) := by
  have closed := Stream.openFence_eq_none cut.closed
  have stop := (Stream.ofText_append some (cut.ended.parted _) closed unmarked).2
  obtain ⟨seam, start⟩ := Stream.isSeam_items cut unmarked
  have sealed : Item.IsSealed (Stream.ofText front).items :=
    Item.isSealed_ofLines none (scanned_ofText front) cut.untagged
  rw [scenarios_parse, scenarios_parse, scenarios_parse, Stream.items_append some cut unmarked,
    Scenarios.membersOf_append seam sealed, start, stop, Scenarios.membersOf_shift,
    List.map_append, List.map_map, List.map_map]
  simp only [Function.comp_def, Scenario.tree_shift]
  rfl

/-- The scenarios of a text that falls into two are those of the front and, further behind, those
of the rest. A byte-order mark counts as such only at the beginning of the whole, and lines move down
only as far as they are counted. -/
theorem scenarios_append (options : Options) {front rest : List Char} (cut : IsCut front rest)
    (unmarked : front = [] ∨ rest.head? ≠ some byteOrderMark) :
    (parse options (front ++ rest)).scenarios =
      (parse options front).scenarios ++ (parse options rest).scenarios.map
        (Tree.shift ⟨Text.byteLength front, Text.breakCount front⟩) := by
  by_cases empty : front = []
  · subst empty
    have none : (parse options []).scenarios = [] := by
      rw [← List.length_eq_zero_iff, length_scenarios]
      rfl
    have stays : Tree.shift ⟨Text.byteLength [], Text.breakCount []⟩ = id := funext Tree.shift_zero
    rw [none, stays, List.map_id]
    rfl
  · exact scenarios_append_of_ne_nil options empty cut (unmarked.resolve_left empty)

theorem scenarios_append_broken :
    let front := "@x|\nExamples:\nRule:\nScenario Outline:\n \"\"\"\n```\n@t\n\"\"\" u\n".toList
    let rest := "Example:\n@v\nRule:\nScenario:\n@y".toList
    IsCut front rest ∧ rest.head? ≠ some byteOrderMark ∧
      (parse ⟨true⟩ (front ++ rest)).scenarios =
        (parse ⟨true⟩ front).scenarios ++ (parse ⟨true⟩ rest).scenarios.map
          (Tree.shift ⟨Text.byteLength front, Text.breakCount front⟩) := by
  intro front rest
  have cut : IsCut front rest := by decide +kernel
  have plain : rest.head? ≠ some byteOrderMark := by decide +kernel
  exact ⟨cut, plain, scenarios_append ⟨true⟩ cut (.inr plain)⟩

lemma isCut_feeds (n : Nat) {rest : List Char}
    (begins : ∃ t ∈ (Stream.ofText rest).tokens.head?, t.kind.isScenario) :
    IsCut (List.replicate n '\n') rest where
  ended := Stream.isEnded_feeds n
  closed := by simp [Stream.reports_feeds]
  untagged := by
    have blank : (Stream.ofText (List.replicate n '\n')).lines = [] :=
      RawLine.filterMap_significant?_eol fun t ht => Stream.kind_of_mem_feeds ht
    simp [blank]
  begins := begins

lemma scenarios_append_feeds {n : Nat} (beyond : Position.limit ≤ n) :
    let front := List.replicate n '\n'
    let rest := "Scenario: s\n".toList
    let line (t : Tree) := t.start.position.line
    IsCut front rest ∧ rest.head? ≠ some byteOrderMark ∧
      (parse ⟨true⟩ (front ++ rest)).scenarios.map line ≠
        (parse ⟨true⟩ front).scenarios.map line ++
          (parse ⟨true⟩ rest).scenarios.map (line · + Text.breakCount front) := by
  intro front rest line
  have cut : IsCut front rest := isCut_feeds n (by decide +kernel)
  have plain : rest.head? ≠ some byteOrderMark := by decide +kernel
  refine ⟨cut, plain, fun same => ?_⟩
  have some : front ≠ [] := by
    rw [Position.limit] at beyond
    rw [ne_eq, List.replicate_eq_nil_iff]
    omega
  have none : (parse ⟨true⟩ front).scenarios = [] := by
    rw [← List.length_eq_zero_iff, length_scenarios, List.length_eq_zero_iff,
      List.filter_eq_nil_iff]
    intro t ht
    rcases List.mem_append.mp ht with ht | ht
    · rw [Stream.kind_of_mem_feeds ht]
      decide
    · obtain rfl := List.mem_singleton.mp ht
      exact Bool.false_ne_true
  have moved (t : Tree) : line (t.shift ⟨Text.byteLength front, n⟩) = Position.add (line t) n :=
    congrArg (·.position.line) (Tree.start_shift _ t)
  have one : (parse ⟨true⟩ rest).scenarios.map line = [1] := by decide +kernel
  rw [scenarios_append_of_ne_nil ⟨true⟩ some cut plain, none, List.nil_append, List.map_nil,
    List.nil_append, List.map_map, Text.breakCount_replicate_feed] at same
  have lines : ((parse ⟨true⟩ rest).scenarios.map line).map (Position.add · n) =
      ((parse ⟨true⟩ rest).scenarios.map line).map (· + n) := by
    rw [List.map_map, List.map_map]
    exact (List.map_congr_left fun t _ => (moved t).symm).trans same
  rw [one, Position.limit] at *
  simp [Position.add, Position.limit] at lines
  omega

/-- Not with a rest that has a mark of its own: in the middle of a text the mark is a character like
any other, and hides the keyword behind it. Nor are lines moved down that cannot be counted. -/
theorem scenarios_append_mark :
    (let front := "Feature: f\n".toList
      let rest := byteOrderMark :: "Scenario: s\n".toList
      IsCut front rest ∧
        (parse ⟨true⟩ (front ++ rest)).scenarios ≠
          (parse ⟨true⟩ front).scenarios ++ (parse ⟨true⟩ rest).scenarios.map
            (Tree.shift ⟨Text.byteLength front, Text.breakCount front⟩)) ∧
      let front := List.replicate 4294967295 '\n'
      let rest := "Scenario: s\n".toList
      let line (t : Tree) := t.start.position.line
      IsCut front rest ∧ rest.head? ≠ some byteOrderMark ∧
        (parse ⟨true⟩ (front ++ rest)).scenarios.map line ≠
          (parse ⟨true⟩ front).scenarios.map line ++
            (parse ⟨true⟩ rest).scenarios.map (line · + Text.breakCount front) := by
  refine ⟨⟨by decide +kernel, fun same => ?_⟩, scenarios_append_feeds (Nat.le_refl 4294967295)⟩
  have length := congrArg List.length same
  rw [List.length_append, List.length_map, length_scenarios, length_scenarios,
    length_scenarios] at length
  revert length
  decide +kernel

end Parsed

end FeatureFile
