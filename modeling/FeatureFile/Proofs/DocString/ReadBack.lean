import FeatureFile.Proofs.DocString.Written
import FeatureFile.Proofs.Tree.Steps
import FeatureFile.Proofs.UnevenRows

namespace FeatureFile

open FeatureFile.Tree (leaf built)
open Grammar (Spells Symbol)
open Lexeme (IsLine)
open Text (isBlank trim)

namespace Block

variable {b : Block} {doc : WrittenDocString}

lemma docValue_view (b : Block) : b.view.docValue = b.content.flatMap (·.text) := by
  have leaves : (b.opening.tokenTrees).find? (Tree.ofRule .docStringsValue) = none := by
    refine List.find?_eq_none.mpr (List.forall_mem_map.mpr fun t _ => ?_)
    exact Bool.false_ne_true
  have child : b.tree.child? .docStringsValue =
      some (built .docStringsValue b.opening.stop (b.content.map leaf)) := by
    rw [Tree.child?, tree, Tree.children, List.find?_append, leaves, Option.none_or]
    rfl
  have view : b.view.child? .docStringsValue =
      some ⟨built .docStringsValue b.opening.stop (b.content.map leaf), rfl⟩ :=
    congrArg (Option.bind · (View.cast? .docStringsValue)) child
  rw [View.docValue, view]
  simp [View.text, Tree.text]

lemma Holds.mediaType?_view (h : b.Holds doc) :
    b.view.mediaType? =
      if trim isBlank doc.media = [] then none else some (trim isBlank doc.media) := by
  obtain ⟨eol, ending, kind⟩ := h.ending
  have own : b.view.tree.ownTokens.drop 1 =
      b.opening.tail ++ eol :: b.closingTrees.filterMap Tree.token? := by
    have leaves : b.opening.tokenTrees.filterMap Tree.token? =
        b.opening.head :: b.opening.tail ++ [eol] := by
      rw [Line.tokenTrees, List.filterMap_map, Line.tokens, Option.mem_def.mp ending]
      exact List.filterMap_some
    have children : b.view.tree.ownTokens = b.opening.tokenTrees.filterMap Tree.token? ++
        b.closingTrees.filterMap Tree.token? := List.filterMap_append
    rw [children, leaves]
    simp
  have inner : ∀ t ∈ b.opening.tail, decide (t.kind ≠ .eol) && decide (t.kind ≠ .fence) := by
    intro t ht
    have verbatim := h.verbatim t ht
    cases kind : t.kind <;> simp_all [TokenKind.isVerbatim, TokenKind.isPad]
  rw [View.mediaType?, own, List.takeWhile_append_of_pos inner,
    List.takeWhile_cons_of_neg (by simp [kind]), List.append_nil, h.media]
  simp

end Block

structure WrittenStep where
  feature : List Char
  scenario : List Char
  step : List Char
  featureEnd : List Char
  scenarioEnd : List Char
  stepEnd : List Char
  -- A byte-order mark may come first.
  isFeature : IsLine (· = .header .feature) (Text.stripMark feature)
  isScenario : IsLine (fun k => k = .header .scenario || k = .header .example) scenario
  isStep : IsLine TokenKind.isStep step
  broken : ∀ ending ∈ [featureEnd, scenarioEnd, stepEnd], ending ∈ Text.breaks

namespace WrittenStep

variable (s : WrittenStep) (doc : WrittenDocString)

def text : List Char :=
  s.feature ++ (s.featureEnd ++ (s.scenario ++ (s.scenarioEnd ++ (s.step ++ (s.stepEnd ++ doc.text)))))

lemma stripMark_text : Text.stripMark (s.text doc) =
    Text.stripMark s.feature ++
      (s.featureEnd ++ (s.scenario ++ (s.scenarioEnd ++ (s.step ++ (s.stepEnd ++ doc.text))))) := by
  refine Text.stripMark_append ?_ _
  intro none
  have some := s.isFeature.ne_nil
  rw [none] at some
  exact some rfl

lemma isLineEnd_feature (rest : List Char) :
    Text.IsLineEnd s.featureEnd (s.scenario ++ rest) :=
  Text.isLineEnd_of_mem_breaks (s.broken _ (by simp))
    (Text.head?_append_ne_feed s.isScenario.inline s.isScenario.ne_nil rest)

lemma isLineEnd_scenario (rest : List Char) : Text.IsLineEnd s.scenarioEnd (s.step ++ rest) :=
  Text.isLineEnd_of_mem_breaks (s.broken _ (by simp))
    (Text.head?_append_ne_feed s.isStep.inline s.isStep.ne_nil rest)

lemma isLineEnd_step : Text.IsLineEnd s.stepEnd doc.text :=
  Text.isLineEnd_of_mem_breaks (s.broken _ (by simp))
    (Text.head?_append_ne_feed doc.inline_opening doc.opening_ne_nil _)

lemma items_text :
    ∃ (f h l : Line) (b : Block),
      (Stream.ofText (s.text doc)).items = [.line f, .line h, .line l, .block b] ∧
      Symbol.ofKind f.kind = .feature ∧ Symbol.ofKind h.kind = .scenario ∧ l.kind.isStep ∧
      b.Holds doc := by
  obtain ⟨f, -, feature, first⟩ := Stream.itemsAt_line s.isFeature rfl (s.isLineEnd_feature _)
    (Stream.origin (s.text doc))
  obtain ⟨h, -, scenario, second⟩ := Stream.itemsAt_line s.isScenario rfl (s.isLineEnd_scenario _) _
  obtain ⟨l, -, step, third⟩ := Stream.itemsAt_line s.isStep rfl (s.isLineEnd_step doc) _
  obtain ⟨b, n, block, holds⟩ := doc.itemsAt_text _ []
  rw [List.append_nil] at block
  refine ⟨f, h, l, b, ?_, ?_, ?_, step, holds⟩
  · rw [Stream.items_ofText, stripMark_text, first, second, third, block]
    rfl
  · rw [of_decide_eq_true feature]
    rfl
  · rcases Bool.or_eq_true_iff.mp scenario with kind | kind <;> rw [of_decide_eq_true kind] <;> rfl

lemma isClosed_text : ∀ l ∈ Lexeme.ofText (Text.stripMark (s.text doc)), l.IsClosed := by
  have none : ∀ l ∈ Lexeme.ofText [], l.IsClosed := List.forall_mem_nil _
  have block := doc.isClosed_text none
  rw [List.append_nil] at block
  rw [stripMark_text]
  exact Lexeme.isClosed_line s.isFeature rfl (s.isLineEnd_feature _)
    (Lexeme.isClosed_line s.isScenario rfl (s.isLineEnd_scenario _)
      (Lexeme.isClosed_line s.isStep rfl (s.isLineEnd_step doc) block))

lemma ne_nil : s.text doc ≠ [] := by
  obtain ⟨f, h, l, b, items, -⟩ := s.items_text doc
  intro none
  rw [none] at items
  cases items

lemma parted_text (rest : List Char) : Text.IsParted (s.text doc) rest := by
  refine Text.IsEnded.parted (.inr ?_) rest
  simp [text, WrittenDocString.text, List.getLast?_cons]

lemma openFence_text : openFence (Stream.ofText (s.text doc)).content = none := by
  obtain ⟨f, h, l, b, items, -, -, -, holds⟩ := s.items_text doc
  apply Stream.openFence_eq_none_of_items
  intro b' hb
  rw [items] at hb
  obtain rfl : b' = b := by simpa using hb
  exact Option.isSome_iff_ne_none.mp holds.closed

lemma diagnostics_append {further ending : List Char} (line : IsLine TokenKind.isStep further)
    (stop : Text.IsLineEnd ending [])
    (spelled : Spells Item.IsClean Grammar.feature ((Stream.ofText (s.text doc)).items ++
      Stream.itemsAt (Stream.ofText (s.text doc)).stop (further ++ ending))) :
    (parse ⟨false⟩ (s.text doc ++ (further ++ ending))).diagnostics = [] := by
  have quiet := Lexeme.isClosed_line line rfl stop (List.forall_mem_nil _)
  rw [List.append_nil] at quiet
  exact (Parsed.diagnostics_append_eq_nil_iff (s.ne_nil doc) (s.parted_text doc _)
    (s.openFence_text doc)).mpr ⟨spelled, s.isClosed_text doc, quiet⟩

end WrittenStep

lemma Line.kind_ne_of_ofKind {l : Line} {symbol : Symbol} {k : TokenKind}
    (here : Symbol.ofKind l.kind = symbol) (other : Symbol.ofKind k ≠ symbol) : l.kind ≠ k := by
  rintro rfl
  exact other here

section

variable {f h l l' : Line} {b : Block} (feature : Symbol.ofKind f.kind = .feature)
  (scenario : Symbol.ofKind h.kind = .scenario) (step : l.kind.isStep) (step' : l'.kind.isStep)

include feature scenario step step'

lemma Item.map_symbol_twoSteps :
    [line f, line h, line l, block b, line l'].map symbol =
      [.feature, .scenario, .step, .doc, .step] := by
  simp only [List.map_cons, List.map_nil, symbol, feature, scenario, Symbol.ofKind_of_isStep step,
    Symbol.ofKind_of_isStep step']

lemma Grammar.spells_twoSteps (closed : b.closing.isSome) :
    Spells Item.IsClean Grammar.feature [.line f, .line h, .line l, .block b, .line l'] := by
  have untagged {l : Line} {symbol : Symbol} (here : Symbol.ofKind l.kind = symbol)
      (other : Symbol.tags ≠ symbol) : (Item.line l).IsClean :=
    fun sign => absurd sign (Line.kind_ne_of_ofKind here other)
  constructor
  · rw [Item.map_symbol_twoSteps feature scenario step step',
      ← RegularExpression.rmatch_iff_matches']
    decide +kernel
  · simp only [List.forall_mem_cons]
    exact ⟨untagged feature (by decide), untagged scenario (by decide),
      untagged (Symbol.ofKind_of_isStep step) (by decide), closed,
      untagged (Symbol.ofKind_of_isStep step') (by decide), List.forall_mem_nil _⟩

lemma Item.tableless_twoSteps (fence : b.opening.kind = .fence) :
    ∀ i ∈ [line f, line h, line l, block b, line l'], i.kind ≠ .pipe := by
  simp only [List.forall_mem_cons]
  refine ⟨Line.kind_ne_of_ofKind feature (by decide), Line.kind_ne_of_ofKind scenario (by decide),
    Line.kind_ne_of_ofKind (Symbol.ofKind_of_isStep step) (by decide), ?_,
    Line.kind_ne_of_ofKind (Symbol.ofKind_of_isStep step') (by decide), List.forall_mem_nil _⟩
  intro bar
  cases fence.symm.trans bar

lemma Item.steps_twoSteps :
    steps [line f, line h, line l, block b, line l'] = [⟨l, some b, []⟩, ⟨l', none, []⟩] := by
  have other : ∀ i ∈ [line f, line h], i.symbol ≠ .step := by simp [symbol, feature, scenario]
  have next : Grammar.next [line l'] = some .step :=
    congrArg some (Symbol.ofKind_of_isStep step')
  have first : Step.take l [block b, line l'] = (⟨l, some b, []⟩, [line l']) :=
    Step.take_append (s := ⟨l, some b, []⟩) (by simp) (by simp [next]) (by simp [next])
  have second : Step.take l' [] = (⟨l', none, []⟩, []) := rfl
  have skipped := steps_append_of_other other [line l, block b, line l']
  simp only [List.cons_append, List.nil_append] at skipped
  rw [skipped, steps, if_pos step, first, steps, steps, if_pos step', second, steps]

end

namespace Parsed

/-- The doc string comes back as it was written, and the line below it is a step of its own. -/
theorem docString_read_back (options : Options) (s : WrittenStep) (doc : WrittenDocString)
    {further ending : List Char} (line : IsLine TokenKind.isStep further)
    (stop : Text.IsLineEnd ending []) :
    let p := parse options (s.text doc ++ (further ++ ending))
    p.diagnostics = [] ∧ ∃ v w : View .step, p.steps = [v.tree, w.tree] ∧
      (∃ d ∈ v.docStrings?, d.docValue = doc.content ∧
        d.mediaType? = if trim isBlank doc.media = [] then none else some (trim isBlank doc.media)) ∧
      ∃ l ∈ Line.read? (Stream.ofText (s.text doc)).stop further ending,
        w = Step.view ⟨l, none, []⟩ := by
  intro p
  obtain ⟨f, h, l, b, items, feature, scenario, step, holds⟩ := s.items_text doc
  obtain ⟨l', read, step', below⟩ := Stream.itemsAt_line line rfl stop (Stream.ofText (s.text doc)).stop
  rw [List.append_nil] at below
  have whole : (Stream.ofText (s.text doc ++ (further ++ ending))).items =
      [.line f, .line h, .line l, .block b, .line l'] := by
    rw [Stream.items_append_behind (s.ne_nil doc) (s.parted_text doc _) (s.openFence_text doc), items,
      below]
    rfl
  have spelled := Grammar.spells_twoSteps feature scenario step step' holds.closed
  have clean : p.hasError = false := hasError_iff_items.mpr (whole ▸ spelled)
  have silent : p.diagnostics = [] := by
    rw [diagnostics_of_tableless]
    · apply s.diagnostics_append doc line stop
      rw [items, below]
      exact spelled
    · rw [items_of_clean clean, whole]
      exact Item.tableless_twoSteps feature scenario step step' holds.fence
  have taken : p.steps = [(⟨l, some b, []⟩ : Step).tree, (⟨l', none, []⟩ : Step).tree] := by
    rw [steps_of_clean clean, whole, Item.steps_twoSteps feature scenario step step']
    rfl
  have found : (Step.view ⟨l, some b, []⟩).docStrings? = some b.view := Step.docStrings?_view
  refine ⟨silent, Step.view ⟨l, some b, []⟩, Step.view ⟨l', none, []⟩, taken,
    ⟨b.view, found, ?_, holds.mediaType?_view⟩, l', read, rfl⟩
  rw [Block.docValue_view, holds.content]

theorem docString_read_back_inert :
    let s : WrittenStep := ⟨"Feature: f".toList, "Example: e".toList, "\tWhen w # c".toList,
      "\n".toList, "\r\n".toList, "\r".toList, by decide +kernel, by decide +kernel, by decide +kernel,
      by decide +kernel⟩
    let doc : WrittenDocString := ⟨.quotes, "\t ".toList, " json ``` ".toList,
      "Scenario: s\r\n | @t # c\r\n\r```\n \"\"".toList ++ "\n".toList, "  ".toList, by decide +kernel,
      by decide +kernel, by decide +kernel, by decide +kernel⟩
    let further := "Then t".toList
    let p := parse ⟨true⟩ (s.text doc ++ (further ++ []))
    IsLine TokenKind.isStep further ∧ Text.IsLineEnd [] [] ∧ p.diagnostics = [] ∧
      ∃ v w : View .step, p.steps = [v.tree, w.tree] ∧
        (∃ d ∈ v.docStrings?, d.docValue = doc.content ∧
          d.mediaType? =
            if trim isBlank doc.media = [] then none else some (trim isBlank doc.media)) ∧
        ∃ l ∈ Line.read? (Stream.ofText (s.text doc)).stop further [],
          w = Step.view ⟨l, none, []⟩ := by
  intro s doc further p
  have line : IsLine TokenKind.isStep further := by decide +kernel
  have stop : Text.IsLineEnd [] [] := by decide
  exact ⟨line, stop, docString_read_back ⟨true⟩ s doc line stop⟩

end Parsed

end FeatureFile
