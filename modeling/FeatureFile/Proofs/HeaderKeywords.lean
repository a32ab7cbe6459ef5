import FeatureFile.Proofs.Grammar.Accepts
import FeatureFile.Proofs.Tree.Sections
import FeatureFile.View.Header

namespace FeatureFile

open RegularExpression (char star)
open Item (headers headers_cons)

def Rule.isHeadedBy : Rule → TokenKind → Bool
  | feature => (· = .header .feature)
  | background => (· = .header .background)
  | businessRule => (· = .header .rule)
  | scenario => fun k => k = .header .scenario || k = .header .example
  | scenarioOutline => (· = .header .outline)
  | examples => TokenKind.isExamples
  | _ => fun _ => false

def Rule.isHeaded : Rule → Bool
  | feature | background | businessRule | scenario | scenarioOutline | examples => true
  | _ => false

def Part.kind? : Part → Option TokenKind
  | token kind => some kind
  | child _ => none

namespace Shape

variable {p : TokenKind → Bool} {e e' : RegularExpression Part}

lemma exists_of_mem_sum {es : List (RegularExpression Part)} {w : List Part}
    (word : w ∈ es.sum.matches') : ∃ e ∈ es, w ∈ e.matches' := by
  induction es with
  | nil => exact absurd word (Language.notMem_zero w)
  | cons e es ih =>
    rw [List.sum_cons] at word
    rcases word with word | word
    · exact ⟨e, List.mem_cons_self, word⟩
    · obtain ⟨e', mem, word⟩ := ih word
      exact ⟨e', List.mem_cons_of_mem e mem, word⟩

lemma eq_of_mem_token {w : List Part} (h : w ∈ (token p).matches') :
    ∃ k, p k ∧ w = [.token k] := by
  obtain ⟨e, mem, word⟩ := exists_of_mem_sum h
  obtain ⟨k, hk, rfl⟩ := List.mem_map.mp mem
  exact ⟨k, (List.mem_filter.mp hk).2, word⟩

def IsLed (p : TokenKind → Bool) (e : RegularExpression Part) : Prop :=
  ∀ w ∈ e.matches', ∃ k ∈ (w.filterMap Part.kind?).head?, p k

lemma isLed_token : IsLed p (token p) := by
  intro w hw
  obtain ⟨k, passes, rfl⟩ := eq_of_mem_token hw
  exact ⟨k, rfl, passes⟩

lemma IsLed.mul (h : IsLed p e) : IsLed p (e * e') := by
  rintro _ ⟨u, hu, v, -, rfl⟩
  obtain ⟨k, first, passes⟩ := h u hu
  exact ⟨k, by simp [List.filterMap_append, List.head?_append, Option.mem_def.mp first], passes⟩

lemma IsLed.behind (h : IsLed p e') (silent : ∀ a ∈ letters e, a.kind? = none) :
    IsLed p (e * e') := by
  rintro _ ⟨u, hu, v, hv, rfl⟩
  obtain ⟨k, first, passes⟩ := h v hv
  have none : u.filterMap Part.kind? = [] :=
    List.filterMap_eq_nil_iff.mpr fun a ha => silent a (mem_letters hu a ha)
  refine ⟨k, ?_, passes⟩
  change k ∈ ((u ++ v).filterMap Part.kind?).head?
  rwa [List.filterMap_append, none, List.nil_append]

lemma isLed_header : IsLed p (header p) :=
  isLed_token.mul.mul.mul

lemma isLed_heading : IsLed p (heading p) :=
  isLed_header.behind (by decide)

lemma isLed_shape {rule : Rule} (headed : rule.isHeaded) (below : rule ≠ .feature) :
    IsLed rule.isHeadedBy rule.shape := by
  cases rule with
  | feature => exact absurd rfl below
  | background => exact isLed_header.mul
  | businessRule => exact isLed_heading.mul.mul
  | scenario => exact isLed_heading.mul.mul
  | scenarioOutline => exact isLed_heading.mul.mul
  | examples => exact isLed_heading.mul
  | _ => cases headed

end Shape

lemma Rule.isHeader_of_isHeadedBy {rule : Rule} {k : TokenKind} (h : rule.isHeadedBy k) :
    k.isHeader := by
  cases rule <;> cases k <;> first | rfl | cases h

namespace Tree

lemma kind_ownTokens (t : Tree) :
    t.ownTokens.map Token.kind = (t.children.map part).filterMap Part.kind? := by
  rw [ownTokens, List.map_filterMap, List.filterMap_map]
  refine List.filterMap_congr fun u _ => ?_
  cases u <;> rfl

lemma IsShaped.keyword? {t : Tree} {rule : Rule} (shaped : t.IsShaped) (ofRule : t.ofRule rule)
    (headed : rule.isHeaded) (below : rule ≠ .feature) :
    ∃ u ∈ t.keyword?, rule.isHeadedBy u.kind := by
  obtain ⟨own, same, word⟩ := shaped
  obtain rfl : own = rule := Option.some.inj (same.symm.trans (of_decide_eq_true ofRule))
  obtain ⟨k, first, passes⟩ := Shape.isLed_shape headed below _ word
  rw [← kind_ownTokens, List.head?_map] at first
  obtain ⟨u, head, rfl⟩ := Option.map_eq_some_iff.mp first
  obtain ⟨rest, whole⟩ := List.head?_eq_some_iff.mp head
  refine ⟨u, ?_, passes⟩
  rw [Tree.keyword?, whole]
  exact List.find?_cons_of_pos (Rule.isHeader_of_isHeadedBy passes)

end Tree

lemma Opening.kind_head?_headers {ls : List RawLine} (scanned : Scanned false ls)
    (ends : endsJunk (kindBehindTags ls)) :
    ∀ t ∈ (headers (Item.ofLines none ls)).head?, t.kind = kindBehindTags ls := by
  induction ls with
  | nil => simp [Item.ofLines]
  | cons l rest ih =>
    have lexed := Item.isLexed_ofLines none scanned (by simp)
    have proper := fun i hi => (Item.isScanned_ofLines none scanned (by simp) i hi).proper
    rw [Item.ofLines] at lexed proper ⊢
    cases here : l.significant? with
    | none =>
      rw [kindBehindTags_cons_none rest here] at ends ⊢
      exact ih (scanned.rest_of_stays (RawLine.turns_of_significant?_none here)) ends
    | some found =>
      rw [kindBehindTags_cons_some rest here] at ends ⊢
      have line : found.kind ≠ .fence := by
        intro fence
        simp [fence, endsJunk, TokenKind.isHeader] at ends
      simp only [here, if_neg line] at lexed proper ⊢
      rw [headers_cons (lexed _ List.mem_cons_self)]
      by_cases tags : found.kind = .atSign
      · have kind : (Item.line found).kind = .atSign := tags
        simp only [tags, if_true, kind, TokenKind.isHeader] at ends ⊢
        exact ih (scanned.rest_of_stays (scanned.stays here line)) ends
      · have header : found.kind.isHeader := by
          have last := (proper _ List.mem_cons_self).2
          have kinds : found.kind.isHeader ∧ found.kind.isExamples = false := by
            simpa [tags, endsJunk, last] using ends
          exact kinds.1
        rw [if_pos (by exact header), if_neg tags]
        rintro t ⟨⟩
        rfl

lemma Opening.endsJunk_skipJunk (ls : List RawLine) :
    endsJunk (kindBehindTags (skipJunk ls).2) := by
  fun_induction skipJunk ls with
  | case1 => rfl
  | case2 l rest blank ih => exact ih
  | case3 l rest found here ends => exact ends
  | case4 l rest found here goes ih => exact ih

namespace Feature

variable {f : Feature}

lemma ownTokens_tree (f : Feature) :
    f.tree.ownTokens = f.opening.junk.flatMap Line.tokens ++
      (f.opening.heading.toList.flatMap Heading.trees).filterMap Tree.token? := by
  have junk : (f.opening.junk.flatMap Line.tokenTrees).filterMap Tree.token? =
      f.opening.junk.flatMap Line.tokens := by
    rw [List.filterMap_flatMap]
    refine List.flatMap_congr fun l _ => ?_
    rw [Line.tokenTrees, List.filterMap_map]
    exact List.filterMap_some
  have heading : f.opening.headingTrees.filterMap Tree.token? =
      (f.opening.heading.toList.flatMap Heading.trees).filterMap Tree.token? := by
    rw [Opening.headingTrees]
    cases f.opening.heading <;> simp [Tree.built, Tree.token?]
  rw [tree, Tree.ownTokens, Tree.children, List.filterMap_append, List.filterMap_append, junk,
    heading]
  exact List.append_nil _

lemma keyword?_tree (formed : f.IsFormed) :
    f.tree.keyword? = ((f.opening.junk.flatMap Line.tokens).find? (·.kind.isHeader)).or
      (f.opening.heading.map Heading.keyword) := by
  rw [Tree.keyword?, ownTokens_tree, List.find?_append]
  congr 1
  cases heading : f.opening.heading with
  | none => rfl
  | some h => simpa using Heading.find?_trees (formed.heading h heading).1 []

lemma isExamples_of_junk (formed : f.IsFormed) {t : Token}
    (mem : t ∈ f.opening.junk.flatMap Line.tokens) (header : t.kind.isHeader) :
    t.kind.isExamples := by
  obtain ⟨l, hl, ht⟩ := List.mem_flatMap.mp mem
  simpa [TokenKind.isSection, header] using formed.junk l hl t ht

lemma isSection_of_head?_headers (eof : Token) {ls : List RawLine} (scanned : Scanned false ls)
    (none : (ofLines eof ls).opening.heading = none) :
    ∀ t ∈ (headers (ofLines eof ls).items).head?,
      t.kind ≠ .header .feature ∧ t.kind.isExamples = false := by
  have heading : (Opening.takeHeading (Item.ofLines .none (Opening.skipJunk ls).2)).1 = .none := none
  have ends := Opening.endsJunk_skipJunk ls
  rw [items_ofLines]
  intro t ht
  have header : t.kind.isHeader := (List.mem_filter.mp (List.mem_of_mem_head? ht)).2
  rcases Opening.scanned_skipJunk scanned .none rfl with empty | ⟨below, -⟩
  · simp [empty, Item.ofLines] at ht
  · have kind := Opening.kind_head?_headers below ends t ht
    refine ⟨fun feature => ?_, ?_⟩
    · have found := (Opening.kind?_ofLines .feature (Opening.skipJunk ls).2).mpr (kind ▸ feature)
      rw [Heading.kind?_eq] at found
      obtain ⟨⟨h, rest⟩, taken, same⟩ := Option.map_eq_some_iff.mp found
      simp [Opening.takeHeading, taken, show h.kind = .header .feature from same] at heading
    · have inner : t.kind ≠ .eof := by
        intro eof
        simp [eof, TokenKind.isHeader] at header
      rw [← kind] at ends
      simpa [Opening.endsJunk, header, inner] using ends

end Feature

namespace Parsed

def OwnKeywords (p : Parsed) : Prop :=
  ∀ (rule : Rule) (v : View rule), rule.isHeaded → v.tree ∈ p.root :: p.root.descendants →
    match v.headerToken? with
    | some t => rule.isHeadedBy t.kind
    | none => v.tree = p.root ∧ p.feature.opening.heading = none

variable (options : Options) (text : List Char)

lemma find?_tokens :
    let p := parse options text
    p.tokens.find? (·.kind.isHeader) =
      ((p.feature.opening.junk.flatMap Line.tokens).find? (·.kind.isHeader)).or
        (headers p.feature.items).head? := by
  intro p
  have kept := (keeps_items options text).filter_eq (p := (·.kind.isHeader))
    fun t header => TokenKind.isTrivia_of_isHeader header
  have last : [p.stream.eof].filter (·.kind.isHeader) = [] := rfl
  rw [tokens, Stream.tokens, ← List.head?_filter, List.filter_append, last, List.append_nil, ← kept,
    List.filter_append, List.head?_append, List.head?_filter]
  rfl

lemma keyword?_root :
    let p := parse options text
    p.root.keyword? = (p.tokens.find? (·.kind.isHeader)).filter
      fun t => t.kind = .header .feature || t.kind.isExamples := by
  intro p
  have formed : p.feature.IsFormed := isFormed
  have lexed : ∀ i ∈ p.feature.items, i.IsLexed := isLexed
  rw [root, Feature.keyword?_tree formed, find?_tokens]
  cases junk : (p.feature.opening.junk.flatMap Line.tokens).find? (·.kind.isHeader) with
  | some t =>
    have header := List.find?_some (p := fun t : Token => t.kind.isHeader) junk
    have own := Feature.isExamples_of_junk formed (List.mem_of_find?_eq_some junk) header
    simp [Option.filter, own]
  | none =>
    rw [Option.none_or, Option.none_or]
    cases heading : p.feature.opening.heading with
    | some h =>
      have kind : h.keyword.kind = .header .feature := (formed.heading h heading).2
      have first : (headers p.feature.items).head? = some h.keyword := by
        simp [Feature.headers_items formed lexed, heading]
      rw [first]
      simp [Option.filter, kind]
    | none =>
      have other := Feature.isSection_of_head?_headers _ (scanned_ofText text) heading
      symm
      rw [Option.map_none, Option.filter_eq_none_iff]
      intro t ht
      simpa using other t ht

lemma keyword?_descendant {rule : Rule} (headed : rule.isHeaded) {n : Tree}
    (below : n ∈ (parse options text).root.descendants) (ofRule : n.ofRule rule) :
    ∃ t ∈ n.keyword?, rule.isHeadedBy t.kind := by
  have fits : Tree.Fits (Shape.child .feature) [(parse options text).root] := fits_root
  have mem : n ∈ Tree.nodesOf [(parse options text).root] := Tree.mem_nodesOf_singleton rfl below
  rw [Tree.descendants_eq_nodesOf] at below
  have low := fits.rank_lt_of_node n below
  refine (fits.nodes n mem).keyword? ofRule headed ?_
  rintro rfl
  exact absurd low (by simp [Tree.rank_of_ofRule ofRule])

/-- Below the root every section reports its own keyword, whatever the text. The root reports the
first keyword of the text if that begins a feature or examples, so it is only examples in front of
any other section that are taken for its header. -/
theorem headers_report (options : Options) (text : List Char) :
    let p := parse options text
    let first := p.tokens.find? (·.kind.isHeader)
    (∀ (rule : Rule) (v : View rule), rule.isHeaded → v.tree ∈ p.root.descendants →
        ∃ t ∈ v.headerToken?, rule.isHeadedBy t.kind) ∧
      (∀ v : View .feature, v.tree = p.root →
        v.headerToken? = first.filter fun t => t.kind = .header .feature || t.kind.isExamples) ∧
      (p.OwnKeywords ↔ ∀ t ∈ first, t.kind.isExamples = false) := by
  intro p first
  have root := keyword?_root options text
  refine ⟨fun rule v headed below => keyword?_descendant options text headed below v.ofRule,
    fun v same => ?_, fun own t ht => ?_, fun plain rule v headed mem => ?_⟩
  · rw [View.headerToken?, same]
    exact root
  · rw [Bool.eq_false_iff]
    intro examples
    let v : View .feature := ⟨p.root, rfl⟩
    have report := own .feature v rfl List.mem_cons_self
    have found : v.headerToken? = some t := by
      refine root.trans ?_
      rw [show p.tokens.find? (·.kind.isHeader) = some t from ht]
      simp [Option.filter, examples]
    rw [found] at report
    rw [show t.kind = .header .feature from of_decide_eq_true report] at examples
    cases examples
  · rcases List.mem_cons.mp mem with same | below
    · obtain rfl : rule = .feature := by
        have kind := v.ofRule
        rw [same] at kind
        exact (Option.some.inj (of_decide_eq_true kind)).symm
      have report : v.headerToken? = first.filter _ := (congrArg Tree.keyword? same).trans root
      cases found : v.headerToken? with
      | some t =>
        obtain ⟨here, kind⟩ := Option.filter_eq_some_iff.mp (report.symm.trans found)
        simpa [plain t here, Rule.isHeadedBy] using kind
      | none =>
        have none : p.root.keyword? = none := (congrArg Tree.keyword? same).symm.trans found
        rw [Parsed.root, Feature.keyword?_tree (f := p.feature) isFormed] at none
        exact ⟨same, Option.map_eq_none_iff.mp (Option.or_eq_none_iff.mp none).2⟩
    · obtain ⟨t, found, kind⟩ := keyword?_descendant options text headed below v.ofRule
      have found : v.headerToken? = some t := found
      rw [found]
      exact kind

/-- Examples in front of the header: the line is skipped, and the root takes its keyword for that of
the feature. -/
theorem headers_report_examples :
    let p := parse ⟨true⟩ "Examples: x\nFeature: f\n".toList
    p.feature.opening.heading.map Heading.kind = some (.header .feature) ∧
      p.root.keyword?.map Token.kind = some (.header .examples) ∧ ¬ p.OwnKeywords := by
  intro p
  have reported : p.root.keyword?.map Token.kind = some (.header .examples) := by decide +kernel
  refine ⟨by decide +kernel, reported, fun own => ?_⟩
  obtain ⟨t, found, kind⟩ := Option.map_eq_some_iff.mp reported
  let v : View .feature := ⟨p.root, rfl⟩
  have report := own .feature v rfl List.mem_cons_self
  rw [show v.headerToken? = some t from found] at report
  cases kind.symm.trans (of_decide_eq_true report)

end Parsed

end FeatureFile
