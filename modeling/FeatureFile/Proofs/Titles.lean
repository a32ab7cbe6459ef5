import FeatureFile.Proofs.Document.Descriptions
import FeatureFile.Proofs.Document.TitleLines
import FeatureFile.Proofs.Tree.TitleViews

namespace FeatureFile

open Text (SourceLine byteLength trim isPad)

namespace Line

variable {text before : List Char} {m : Mark} {s : SourceLine} {rest : List SourceLine} {l : Line}

lemma start_within (there : Passage.GoesOn text m before none (s :: rest))
    (here : (RawLine.read m none s.content s.ending).significant? = some l)
    (word : l.kind.isFree = false) (fence : l.kind ≠ .fence) :
    byteLength before ≤ l.start.offset ∧ l.start.offset < byteLength (before ++ s.text) := by
  obtain ⟨-, first, tokens⟩ := place_of_significant? here word fence
  have some : s.content.dropWhile isPad ≠ [] := by
    intro none
    rw [none] at tokens
    cases tokens
  have positive := Text.byteLength_pos some
  have content := congrArg byteLength (List.takeWhile_append_dropWhile (p := isPad) (l := s.content))
  have start : m.offset = byteLength before := there.read.start
  rw [first, Token.offset_placeEnd, Lexeme.flatMap_text_pads, start, SourceLine.text]
  simp only [Text.byteLength_append] at content ⊢
  omega

end Line

namespace View

variable {rule : Rule}

/-- The section or step shows what the text has behind its keyword: on the line there, and, for a
header, on the lines below. -/
structure ShowsTitle (v : View rule) (text : List Char) (keyword : Token) (line : Passage) : Prop where
  lies : line.EndsLine text keyword.stop
  literals : v.name.parameters.map literal? =
    ((line.tokens text).filter (·.kind.isLiteral)).map some
  step : rule = .step → v.name.text = if line.text.head? = some '#' then [] else trim isPad line.text
  header : rule.isHeaded → ∃ name, line.text = ':' :: name ∧ v.name.text = trim isPad name ∧
    v.description.text =
      ((Passage.linesBelow text keyword.start).takeWhile (Passage.isProse text)).flatMap Passage.shown

end View

namespace Parsed

variable {options : Options} {text : List Char} {rule : Rule} {v : View rule}

lemma exists_line {l : Line} {front below : List Item} (keyword : l.kind.isKeyword)
    (whole : (parse options text).feature.items = front ++ .line l :: below) :
    ∃ line : Passage, line.EndsLine text l.head.stop ∧ line.tokens text = l.tail ∧
      l.TitleForm line.text ∧
      ((Item.takeLines TokenKind.isProse below).1.flatMap Line.tokens).flatMap Token.text =
        ((Passage.linesBelow text l.start).takeWhile (Passage.isProse text)).flatMap Passage.shown := by
  have word := Lexeme.isFree_of_isKeyword keyword
  obtain ⟨m, before, s, rest, there, here, fence, rfl⟩ := exists_goesOn whole word
  obtain ⟨line, lies, tokens, form⟩ := Line.exists_endsLine there here keyword
  refine ⟨line, lies, tokens, form, ?_⟩
  have turns := RawLine.turns_of_significant? (RawLine.shape_read m none _ _) here
  have behind : Fence.behind none (s.content.dropWhile isPad) = none :=
    Passage.GoesOn.behind_eq_none (Bool.eq_false_iff.mpr fun opens => fence (turns.mp opens))
  have next := there.next
  rw [behind] at next ⊢
  obtain ⟨above, inside⟩ := Line.start_within there here word fence
  rw [next.flatMap_takeLines, there.linesBelow_eq above inside]

lemma showsTitle_step {s : Step} (heads : (Title.step s).Heads v.tree)
    (stands : (Title.step s).StandsIn (parse options text).feature.items) :
    ∃ line, v.ShowsTitle text s.line.head line := by
  obtain ⟨front, below, whole⟩ := List.append_of_mem stands
  have step : s.line.kind.isStep := heads.1
  have name := Title.tree_name_of_step heads
  have ofRule : rule = .step := by
    have here := v.rule?_tree
    rw [heads.2] at here
    exact (Option.some.inj here).symm
  obtain ⟨line, lies, tokens, form, -⟩ := exists_line (by simp [TokenKind.isKeyword, step]) whole
  refine ⟨line, lies, ?_, fun _ => ?_, fun headed => ?_⟩
  · rw [tokens]
    exact Line.parameters_nameTree name
  · rw [View.text, name]
    cases form with
    | header header => cases kind : s.line.kind <;> simp_all [TokenKind.isStep, TokenKind.isHeader]
    | remarkedStep _ first tail comment =>
      rw [if_pos first, tail]
      exact Line.text_nameTree_comment _ comment
    | step _ other free =>
      rw [if_neg other]
      exact Line.text_nameTree _ free
  · rw [ofRule] at headed
    cases headed

lemma showsTitle_heading {h : Heading} (heads : (Title.heading h).Heads v.tree)
    (stands : (Title.heading h).StandsIn (parse options text).feature.items) :
    ∃ line, v.ShowsTitle text h.header.head line := by
  obtain ⟨above, below, whole, description⟩ := stands
  obtain ⟨rule', -, -, ofRule, kind, -, -⟩ := id heads
  obtain rfl : rule = rule' := Option.some.inj (v.rule?_tree.symm.trans ofRule)
  have header : h.header.kind.isHeader := Rule.isHeader_of_isHeadedBy kind
  obtain ⟨line, lies, tokens, form, lower⟩ := exists_line (by simp [TokenKind.isKeyword, header]) whole
  cases form with
  | @header colon rest shown _ first tail kind' free =>
    have name := Title.tree_name_of_heads heads tail kind'
    refine ⟨line, lies, ?_, fun step => ?_, fun _ => ⟨shown, first, ?_, ?_⟩⟩
    · rw [tokens, tail, List.filter_cons_of_neg (by simp [kind', TokenKind.isLiteral])]
      exact Line.parameters_nameTree name
    · rw [step] at kind
      cases kind
    · rw [View.text, name]
      exact Line.text_nameTree _ free
    · rw [View.text, Title.tree_description_of_heads heads tail kind', Heading.text_descriptionTree,
        ← description]
      exact lower
  | remarkedStep step | step step =>
    cases kind : h.header.kind <;> simp_all [TokenKind.isStep, TokenKind.isHeader]

lemma showsTitle_of_heads {a : Title} (heads : a.Heads v.tree)
    (stands : a.StandsIn (parse options text).feature.items) :
    ∃ line, v.ShowsTitle text a.line.head line := by
  cases a with
  | step s => exact showsTitle_step heads stands
  | heading h => exact showsTitle_heading heads stands

lemma titleToken?_root (ofRule : rule = .feature) (same : v.tree = (parse options text).root)
    (bare : (parse options text).feature.opening.heading = none) : v.titleToken? = none := by
  have formed : (parse options text).feature.IsFormed := isFormed
  subst ofRule
  rw [View.titleToken?, same, root, Feature.ownTokens_tree, bare]
  refine List.find?_eq_none.mpr fun t ht => ?_
  obtain ⟨l, hl, ht⟩ := List.mem_flatMap.mp (by simpa using ht)
  have other := formed.junk l hl t ht
  intro kind
  rw [of_decide_eq_true kind] at other
  cases other

/-- Every section and every step shows what the text has behind its keyword. The keyword is there
except for a root without a header. -/
theorem titles_read (options : Options) (text : List Char) (rule : Rule) (v : View rule)
    (titled : rule.isTitled)
    (mem : v.tree ∈ (parse options text).root :: (parse options text).root.descendants) :
    let p := parse options text
    (∀ t ∈ v.titleToken?, ∃ line, v.ShowsTitle text t line) ∧
      (v.titleToken? = none ↔ v.tree = p.root ∧ p.feature.opening.heading = none) := by
  intro p
  have formed : p.feature.IsFormed := isFormed
  have lexed : ∀ i ∈ p.feature.items, i.IsLexed := isLexed
  have ofRoot (same : v.tree = p.root) : rule = .feature := by
    have here := v.rule?_tree
    rw [same] at here
    exact (Option.some.inj here).symm
  have reported (a : Title) (heads : a.Heads v.tree) (stands : a.StandsIn p.feature.items) :
      (∀ t ∈ v.titleToken?, ∃ line, v.ShowsTitle text t line) ∧ v.titleToken? ≠ none := by
    rw [Title.titleToken?_of_heads heads]
    refine ⟨fun t ht => ?_, nofun⟩
    obtain rfl := Option.some.inj ht
    exact showsTitle_of_heads heads stands
  have bare (same : v.tree = p.root) (none : p.feature.opening.heading = none) :=
    titleToken?_root (ofRoot same) same none
  rcases List.mem_cons.mp mem with same | below
  · cases heading : p.feature.opening.heading with
    | none =>
      have none := bare same heading
      rw [none]
      exact ⟨nofun, fun _ => ⟨same, rfl⟩, fun _ => rfl⟩
    | some h =>
      have heads : (Title.heading h).Heads v.tree := same ▸ Feature.heads_tree formed heading
      obtain ⟨shows, some⟩ := reported _ heads (Feature.standsIn_heading heading)
      exact ⟨shows, fun none => absurd none some, fun h => nomatch h.2⟩
  · rw [Tree.descendants_eq_nodesOf] at below
    obtain ⟨a, ha, heads⟩ := Feature.titled_children formed lexed v.tree below (v.any_rule?_tree titled)
    obtain ⟨shows, some⟩ := reported a heads (Feature.standsIn_innerTitles a ha)
    exact ⟨shows, fun none => absurd none some, fun h => absurd (bare h.1 h.2) some⟩

theorem titles_read_remarks :
    let text := "Feature: a\n x\n\n# c\n y 1\nScenario: s\n Given# b\n".toList
    let p := parse ⟨true⟩ text
    (∃ v : View .feature, v.tree = p.root ∧ v.name.text = "a".toList ∧
        v.description.text = "x\ny 1\n".toList ∧
        ∃ t ∈ v.titleToken?, ∃ line, v.ShowsTitle text t line) ∧
      ∃ v : View .step, v.tree ∈ p.root.descendants ∧ v.name.text = [] ∧
        ∃ t ∈ v.titleToken?, ∃ line, v.ShowsTitle text t line := by
  intro text p
  let root : View .feature := ⟨p.root, rfl⟩
  have run : (root.titleToken?.map (·.kind), root.name.text, root.description.text,
      (p.root.descendants.filterMap (View.cast? .step)).head?.map fun v =>
        (v.titleToken?.map (·.kind), v.name.text)) =
      (some (.header .feature), "a".toList, "x\ny 1\n".toList, some (some (.step .given), [])) := by
    decide +kernel
  clear_value text
  obtain ⟨kind, run⟩ := Prod.mk.inj run
  obtain ⟨name, run⟩ := Prod.mk.inj run
  obtain ⟨description, steps⟩ := Prod.mk.inj run
  obtain ⟨v, first, values⟩ := Option.map_eq_some_iff.mp steps
  obtain ⟨given, bare⟩ := Prod.mk.inj values
  obtain ⟨t, keyword, -⟩ := Option.map_eq_some_iff.mp kind
  obtain ⟨u, word, -⟩ := Option.map_eq_some_iff.mp given
  have mem := View.tree_mem (List.mem_of_mem_head? first)
  have header := (titles_read ⟨true⟩ text .feature root rfl List.mem_cons_self).1
  have step := (titles_read ⟨true⟩ text .step v rfl (List.mem_cons_of_mem _ mem)).1
  exact ⟨⟨root, rfl, name, description, t, keyword, header t keyword⟩, v, mem, bare, u, word,
    step u word⟩

end Parsed

end FeatureFile
