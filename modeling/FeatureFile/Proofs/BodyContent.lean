import FeatureFile.Proofs.Document.Reread
import FeatureFile.Proofs.Grammar.Accepts
import FeatureFile.Proofs.Tree.Sections
import FeatureFile.View.Section

namespace FeatureFile

open Grammar
open Item (headers headers_cons)

def TokenKind.isContent (k : TokenKind) : Bool :=
  k = .header .rule || k.isScenario

lemma TokenKind.isHeader_of_isContent {k : TokenKind} (h : k.isContent) : k.isHeader := by
  rcases Bool.or_eq_true_iff.mp h with rule | scenario
  · rw [of_decide_eq_true rule]
    rfl
  · exact isHeader_of_isScenario scenario

namespace Grammar

def Symbol.isContent (s : Symbol) : Bool :=
  s = .rule || s = .scenario || s = .outline

/-- Behind the header: free text, at most one background with all that stays in it, and tags. -/
def IsLead (ss : List Symbol) : Prop :=
  ∃ prose background tags, ss = prose ++ background ++ tags ∧ (∀ s ∈ prose, s = .prose) ∧
    (background = [] ∨ ∃ body, background = .background :: body ∧ ∀ s ∈ body, s.isBody) ∧
    ∀ s ∈ tags, s = .tags

def behindBackground : List Symbol → List Symbol
  | .background :: rest => rest.dropWhile Symbol.isBody
  | ss => ss

def behindLead (ss : List Symbol) : List Symbol :=
  (behindBackground (ss.dropWhile (· = .prose))).dropWhile (· = .tags)

end Grammar

lemma Grammar.Symbol.isContent_ofKind (k : TokenKind) : (ofKind k).isContent = k.isContent := by
  cases k with
  | header word => cases word <;> rfl
  | _ => rfl

namespace Grammar

lemma IsLead.isContent_eq_false {ss : List Symbol} (h : IsLead ss) :
    ∀ s ∈ ss, s.isContent = false := by
  obtain ⟨prose, background, tags, rfl, text, below, signs⟩ := h
  refine List.forall_mem_append.mpr ⟨List.forall_mem_append.mpr ⟨fun s hs => ?_, ?_⟩, fun s hs => ?_⟩
  · rw [text s hs]
    rfl
  · rcases below with rfl | ⟨body, rfl, all⟩
    · simp
    · refine List.forall_mem_cons.mpr ⟨rfl, fun s hs => ?_⟩
      have inner := all s hs
      cases s <;> first | rfl | cases inner
  · rw [signs s hs]
    rfl

lemma takeWhile_isContent {lead rest : List Symbol} (h : ∀ s ∈ lead, s.isContent = false) :
    (lead ++ .rule :: rest).takeWhile (!·.isContent) = lead := by
  rw [List.takeWhile_append_of_pos (by simpa using h), List.takeWhile_cons_of_neg (by decide),
    List.append_nil]

lemma exists_background (ss : List Symbol) :
    ∃ background, ss = background ++ behindBackground ss ∧
      (background = [] ∨ ∃ body, background = .background :: body ∧ ∀ s ∈ body, s.isBody) := by
  unfold behindBackground
  split
  case h_1 rest =>
    refine ⟨.background :: rest.takeWhile Symbol.isBody, ?_, .inr ⟨_, rfl, fun s hs => ?_⟩⟩
    · rw [List.cons_append, List.takeWhile_append_dropWhile]
    · exact List.mem_takeWhile_imp hs
  case h_2 => exact ⟨[], rfl, .inl rfl⟩

lemma exists_isLead (ss : List Symbol) : ∃ lead, ss = lead ++ behindLead ss ∧ IsLead lead := by
  obtain ⟨background, whole, below⟩ := exists_background (ss.dropWhile (· = .prose))
  have only (a : Symbol) (ss : List Symbol) : ∀ s ∈ ss.takeWhile (· = a), s = a :=
    fun s hs => by simpa using List.mem_takeWhile_imp hs
  let behind := behindBackground (ss.dropWhile (· = .prose))
  refine ⟨_, ?_, _, background, _, rfl, only .prose ss, below, only .tags behind⟩
  rw [behindLead, List.append_assoc, List.append_assoc, List.takeWhile_append_dropWhile, ← whole,
    List.takeWhile_append_dropWhile]

lemma behindLead_append {lead rest : List Symbol} (h : IsLead lead) :
    behindLead (lead ++ .rule :: rest) = .rule :: rest := by
  obtain ⟨prose, background, tags, rfl, text, below, signs⟩ := h
  -- None of the scans runs into what the next one is for.
  have stays (p : Symbol → Bool) (ends : p .tags = false ∧ p .rule = false) :
      (tags ++ .rule :: rest).dropWhile p = tags ++ .rule :: rest := by
    cases tags with
    | nil => exact List.dropWhile_cons_of_neg (by simp [ends.2])
    | cons s tags =>
      exact List.dropWhile_cons_of_neg (by simp [signs s List.mem_cons_self, ends.1])
  have first : behindBackground (tags ++ .rule :: rest) = tags ++ .rule :: rest := by
    cases tags with
    | nil => rfl
    | cons s tags => rw [signs s List.mem_cons_self]; rfl
  have last : (tags ++ .rule :: rest).dropWhile (· = .tags) = .rule :: rest := by
    rw [List.dropWhile_append_of_pos (by simpa using signs)]
    exact List.dropWhile_cons_of_neg (by simp)
  rw [behindLead, List.append_assoc, List.append_assoc,
    List.dropWhile_append_of_pos (by simpa using text)]
  rcases below with rfl | ⟨body, rfl, all⟩
  · rw [List.nil_append, stays _ ⟨rfl, rfl⟩, first, last]
  · rw [List.cons_append, List.dropWhile_cons_of_neg (by simp), behindBackground,
      List.dropWhile_append_of_pos all, stays _ ⟨rfl, rfl⟩, last]

lemma head?_behindLead (ss : List Symbol) :
    (behindLead ss).head? = some .rule ↔ ∃ lead rest, ss = lead ++ .rule :: rest ∧ IsLead lead := by
  constructor
  · intro first
    obtain ⟨rest, behind⟩ := List.head?_eq_some_iff.mp first
    obtain ⟨lead, whole, isLead⟩ := exists_isLead ss
    exact ⟨lead, rest, behind ▸ whole, isLead⟩
  · rintro ⟨lead, rest, rfl, isLead⟩
    rw [behindLead_append isLead]
    rfl

end Grammar

namespace Item

variable {items : List Item}

lemma isProper_takeLines (wanted : TokenKind → Bool) (proper : ∀ i ∈ items, i.IsProper) :
    ∀ i ∈ (takeLines wanted items).2, i.IsProper := by
  rw [← map_line_takeLines wanted items] at proper
  exact (List.forall_mem_append.mp proper).2

lemma map_symbol_takeLines (proper : ∀ i ∈ items, i.IsProper) :
    (takeLines TokenKind.isProse items).2.map symbol =
      (items.map symbol).dropWhile (· = .prose) := by
  induction items with
  | nil => rfl
  | cons i items ih =>
    obtain ⟨first, others⟩ := List.forall_mem_cons.mp proper
    cases i with
    | block b => rfl
    | line l =>
      rw [takeLines]
      split
      case isTrue prose =>
        rw [ih others, List.map_cons, symbol, Symbol.ofKind_of_isProse prose,
          List.dropWhile_cons_of_pos (by simp)]
      case isFalse other =>
        have stop : Symbol.ofKind l.kind ≠ .prose :=
          fun prose => other (Symbol.isProse_of_ofKind prose first.2)
        rw [List.map_cons, symbol, List.dropWhile_cons_of_neg (by simpa using stop)]

lemma map_symbol_dropWhile (proper : ∀ i ∈ items, i.IsProper) :
    (items.dropWhile (·.kind.isBody)).map symbol = (items.map symbol).dropWhile Symbol.isBody := by
  induction items with
  | nil => rfl
  | cons i items ih =>
    obtain ⟨first, others⟩ := List.forall_mem_cons.mp proper
    have same : i.kind.isBody = i.symbol.isBody := by
      rw [Bool.eq_iff_iff]
      refine ⟨fun body => ?_, first.isBody⟩
      cases i with
      | line l => exact Symbol.isBody_ofKind_of_isBody body
      | block b => rfl
    rw [List.map_cons, List.dropWhile_cons, List.dropWhile_cons, same]
    split
    · exact ih others
    · rfl

lemma map_symbol_background (eof : Mark) (proper : ∀ i ∈ items, i.IsProper) :
    (Background.take eof items).2.map symbol = behindBackground (items.map symbol) := by
  have drop (ss : List Symbol) :
      (ss.dropWhile (· = .prose)).dropWhile Symbol.isBody = ss.dropWhile Symbol.isBody := by
    induction ss with
    | nil => rfl
    | cons s ss ih =>
      by_cases prose : s = .prose
      · subst prose
        exact ih
      · rw [List.dropWhile_cons_of_neg (by simpa using prose)]
  cases items with
  | nil => rfl
  | cons i items =>
    obtain ⟨first, others⟩ := List.forall_mem_cons.mp proper
    cases i with
    | block b => rfl
    | line l =>
      have symbol : Symbol.ofKind l.kind = .background ↔ l.kind = .header .background :=
        Symbol.ofKind_eq_iff rfl
      rw [Background.take]
      by_cases kind : l.kind = .header .background
      · have below := isProper_takeLines TokenKind.isProse others
        rw [if_pos kind, List.map_cons, Item.symbol, symbol.mpr kind]
        exact (map_symbol_dropWhile below).trans ((congrArg _ (map_symbol_takeLines others)).trans
          (drop _))
      · rw [if_neg kind, behindBackground]
        exact fun rest same => kind (symbol.mp (List.cons.inj same).1)

lemma startsAt_iff (proper : ∀ i ∈ items, i.IsProper) :
    BusinessRule.startsAt items ↔
      ((items.map symbol).dropWhile (· = .tags)).head? = some .rule := by
  rw [BusinessRule.startsAt_iff]
  induction items with
  | nil => simp [Heading.kind?]
  | cons i items ih =>
    obtain ⟨first, others⟩ := List.forall_mem_cons.mp proper
    cases i with
    | block b => simp [Heading.kind?, symbol]
    | line l =>
      have tags : Symbol.ofKind l.kind = .tags ↔ l.kind = .atSign := Symbol.ofKind_eq_iff rfl
      have rule : Symbol.ofKind l.kind = .rule ↔ l.kind = .header .rule := Symbol.ofKind_eq_iff rfl
      rw [Heading.kind?, List.map_cons, symbol]
      by_cases sign : l.kind = .atSign
      · rw [if_pos sign, List.dropWhile_cons_of_pos (by simp [tags.mpr sign])]
        exact ih others
      · rw [if_neg sign, List.dropWhile_cons_of_neg (by simpa [tags] using sign), List.head?_cons,
          Option.some.injEq, rule, Option.ite_none_right_eq_some, Option.some.injEq]
        exact ⟨And.right, fun kind => ⟨by rw [kind]; rfl, kind⟩⟩

lemma map_headers (lexed : ∀ i ∈ items, i.IsLexed) :
    ((headers items).filter (·.kind.isContent)).map (Symbol.ofKind ·.kind) =
      (items.map symbol).filter Symbol.isContent := by
  induction items with
  | nil => rfl
  | cons i items ih =>
    obtain ⟨first, others⟩ := List.forall_mem_cons.mp lexed
    have same : i.symbol.isContent = i.kind.isContent := by
      cases i with
      | line l => exact Symbol.isContent_ofKind l.kind
      | block b =>
        rw [first.kind_block]
        rfl
    rw [headers_cons first, List.filter_append, List.map_append, ih others, List.map_cons,
      List.filter_cons, same]
    have head : i.head.kind = i.kind := rfl
    cases content : i.kind.isContent with
    | false => split <;> simp [head, content]
    | true =>
      have header := TokenKind.isHeader_of_isContent content
      have line : i.symbol = Symbol.ofKind i.kind := by
        cases i with
        | line l => rfl
        | block b => simp [first.kind_block, TokenKind.isHeader] at header
      simp [header, head, content, line]

end Item

def Content.isRules : Content → Bool
  | scenarios _ => false
  | rules _ => true

def ContentView.isRules : ContentView → Bool
  | scenarios _ => false
  | rules _ => true

lemma Content.isRules_ofItems (eof : Mark) (items : List Item) :
    (ofItems eof items).isRules = BusinessRule.startsAt items := by
  rw [ofItems]
  split <;> simp [isRules, *]

namespace Feature

lemma content_ofLines (eof : Token) (ls : List RawLine) {h : Heading}
    (heading : (ofLines eof ls).opening.heading = some h) :
    ∃ below, Item.ofLines none (Opening.skipJunk ls).2 = h.tags.map .line ++ .line h.header :: below ∧
      (ofLines eof ls).content = Content.ofItems eof.start
        (Background.take eof.start (Item.takeLines TokenKind.isProse below).2).2 := by
  have taken : (Opening.takeHeading (Item.ofLines none (Opening.skipJunk ls).2)).1 = some h := heading
  have content : (ofLines eof ls).content = Content.ofItems eof.start (Background.take eof.start
    (Opening.takeHeading (Item.ofLines none (Opening.skipJunk ls).2)).2).2 := rfl
  rw [content]
  generalize Item.ofLines none (Opening.skipJunk ls).2 = items at taken ⊢
  rw [Opening.takeHeading] at taken ⊢
  split at taken
  case h_2 => cases taken
  case h_1 h' rest found =>
    split at taken
    case isFalse => cases taken
    case isTrue kind =>
      obtain rfl := Option.some.inj taken
      obtain ⟨below, tags, -, text⟩ := Heading.take?_eq_some.mp found
      refine ⟨below, ?_, ?_⟩
      · rw [← Item.map_line_takeLines (· = .atSign) items, tags]
      · simp [kind, text]

lemma content?_tree {f : Feature} (formed : f.IsFormed) (lexed : ∀ i ∈ f.items, i.IsLexed) :
    ∃ c, (View.body? ⟨f.tree, rfl⟩).bind View.content? = some c ∧ c.isRules = f.content.isRules := by
  have body : View.body? ⟨f.tree, rfl⟩ = some ⟨f.bodyTree, rfl⟩ := by
    rw [View.body?, View.child?, child?_tree formed lexed]
    rfl
  have background : (f.background.toList.map Background.tree).findSome? ContentView.cast? = none := by
    cases f.background <;> rfl
  have children : f.bodyTree.children =
    f.background.toList.map Background.tree ++ [f.content.tree f.anchor] := rfl
  rw [body, Option.bind_some, View.content?, children, List.findSome?_append, background,
    Option.none_or]
  cases f.content with
  | scenarios s => exact ⟨.scenarios ⟨s.tree, rfl⟩, rfl, rfl⟩
  | rules rs => exact ⟨.rules ⟨(Content.rules rs).tree f.anchor, rfl⟩, rfl, rfl⟩

end Feature

namespace Parsed

def content? (p : Parsed) : Option ContentView :=
  (View.body? ⟨p.root, rfl⟩).bind View.content?

def behindKeyword (p : Parsed) (h : Heading) : List Token :=
  p.stream.content.dropWhile (· ≠ h.keyword)

def symbolsBelow (p : Parsed) (h : Heading) : List Symbol :=
  (Item.ofLines none (RawLine.ofTokens (p.behindKeyword h))).tail.map Item.symbol

def DecidesByFirst (p : Parsed) : Prop :=
  ∀ h ∈ p.feature.opening.heading, ∃ c ∈ p.content?, (c.isRules ↔
    ((p.behindKeyword h).find? (·.kind.isContent)).map Token.kind = some (.header .rule))

variable {options : Options} {text : List Char} {h : Heading}

lemma ofLines_behindKeyword (heading : h ∈ (parse options text).feature.opening.heading) :
    let p := parse options text
    ∃ below, Item.ofLines none (RawLine.ofTokens (p.behindKeyword h)) = .line h.header :: below ∧
      (∀ i ∈ .line h.header :: below, i.IsLexed ∧ i.IsProper) ∧
      p.feature.content = Content.ofItems p.stream.stop
        (Background.take p.stream.stop (Item.takeLines TokenKind.isProse below).2).2 := by
  intro p
  let ls := RawLine.ofTokens p.stream.content
  obtain ⟨below, items, content⟩ := Feature.content_ofLines p.stream.eof ls heading
  obtain ⟨skipped, lines⟩ := Opening.skipJunk_suffix ls
  have nodup : p.stream.content.Nodup :=
    (List.sublist_append_left _ _).nodup (Stream.nodup_tokens text)
  refine ⟨below, Item.ofLines_dropWhile nodup lines.symm items, fun i hi => ?_, content⟩
  have mem : i ∈ Item.ofLines none (Opening.skipJunk ls).2 := by
    rw [items]
    exact List.mem_append_right _ hi
  rcases Opening.scanned_skipJunk (scanned_ofText text) none rfl with empty | ⟨scanned, -⟩
  · rw [show (Opening.skipJunk ls).2 = [] from empty] at mem
    simp [Item.ofLines] at mem
  · exact ⟨Item.isLexed_ofLines none scanned (by simp) i mem,
      (Item.isScanned_ofLines none scanned (by simp) i mem).proper⟩

lemma find?_behindKeyword (heading : h ∈ (parse options text).feature.opening.heading) :
    let p := parse options text
    ((p.behindKeyword h).find? (·.kind.isContent)).map Token.kind = some (.header .rule) ↔
      ∃ lead rest, p.symbolsBelow h = lead ++ .rule :: rest ∧ ∀ s ∈ lead, s.isContent = false := by
  intro p
  obtain ⟨below, items, good, -⟩ := ofLines_behindKeyword heading
  have header : h.header.kind = .header .feature := (isFormed.heading h heading).2
  have symbols : ((p.behindKeyword h).filter (·.kind.isContent)).map (Symbol.ofKind ·.kind) =
      (p.symbolsBelow h).filter Symbol.isContent := by
    have kept := Item.keeps_ofLines none (RawLine.isClosed_ofTokens (p.behindKeyword h))
    rw [Item.openTokens, List.nil_append, RawLine.flatMap_tokens_ofTokens] at kept
    have lexed := Item.map_headers fun i hi => (good i hi).1
    rw [List.map_cons, Item.symbol, header, List.filter_cons_of_neg (by decide)] at lexed
    rw [symbolsBelow, items, List.tail_cons, ← lexed, ← items,
      ← kept.filter_eq fun t content => TokenKind.isTrivia_of_isHeader
        (TokenKind.isHeader_of_isContent content), headers, List.filter_filter]
    congr 1
    refine List.filter_congr fun t _ => ?_
    cases content : t.kind.isContent with
    | false => rfl
    | true => simp [TokenKind.isHeader_of_isContent content]
  have first : ((p.behindKeyword h).find? (·.kind.isContent)).map Token.kind =
        some (.header .rule) ↔ (p.symbolsBelow h).find? Symbol.isContent = some .rule := by
    rw [← List.head?_filter, ← List.head?_filter, ← symbols, List.head?_map]
    simp [Symbol.ofKind_eq_iff (s := .rule) rfl]
  rw [first, List.find?_eq_some_iff_append]
  simp [Symbol.isContent]

lemma isRules_iff_lead (heading : h ∈ (parse options text).feature.opening.heading) :
    let p := parse options text
    ∃ c ∈ p.content?,
      (c.isRules ↔ ∃ lead rest, p.symbolsBelow h = lead ++ .rule :: rest ∧ IsLead lead) := by
  intro p
  obtain ⟨below, items, good, content⟩ := ofLines_behindKeyword heading
  obtain ⟨c, found, same⟩ := Feature.content?_tree (f := p.feature) isFormed isLexed
  refine ⟨c, found, ?_⟩
  have proper : ∀ i ∈ below, i.IsProper := fun i hi => (good i (List.mem_cons_of_mem _ hi)).2
  have text := Item.isProper_takeLines TokenKind.isProse proper
  have rest : ∀ i ∈ (Background.take p.stream.stop (Item.takeLines TokenKind.isProse below).2).2,
      i.IsProper := by
    rw [← Background.items_take p.stream.stop (Item.takeLines _ below).2] at text
    exact (List.forall_mem_append.mp text).2
  rw [same, content, Content.isRules_ofItems, Item.startsAt_iff rest,
    Item.map_symbol_background _ text, Item.map_symbol_takeLines proper, ← head?_behindLead,
    symbolsBelow, items, List.tail_cons, behindLead]

/-- The content of a body is rules if and only if a rule comes right behind the header, with only free
text, a background and tags in between. Then it is also the first header of a rule or a scenario, and
the other way round only if nothing else stands in front of it. -/
theorem content_decided (options : Options) (text : List Char) :
    let p := parse options text
    (∀ h ∈ p.feature.opening.heading, ∃ c ∈ p.content?,
        (c.isRules ↔ ∃ lead rest, p.symbolsBelow h = lead ++ .rule :: rest ∧ IsLead lead) ∧
        (c.isRules → ((p.behindKeyword h).find? (·.kind.isContent)).map Token.kind =
          some (.header .rule))) ∧
      (p.DecidesByFirst ↔ ∀ h ∈ p.feature.opening.heading, ∀ lead rest,
        p.symbolsBelow h = lead ++ .rule :: rest → (∀ s ∈ lead, s.isContent = false) →
        IsLead lead) := by
  intro p
  refine ⟨fun h heading => ?_, fun first h heading lead rest whole other => ?_,
    fun plain h heading => ?_⟩
  · obtain ⟨c, found, rules⟩ := isRules_iff_lead heading
    refine ⟨c, found, rules, fun isRules => ?_⟩
    obtain ⟨lead, rest, whole, isLead⟩ := rules.mp isRules
    exact (find?_behindKeyword heading).mpr ⟨lead, rest, whole, isLead.isContent_eq_false⟩
  · obtain ⟨c, found, rules⟩ := isRules_iff_lead heading
    obtain ⟨c', found', same⟩ := first h heading
    obtain rfl := Option.some.inj (found.symm.trans found')
    obtain ⟨lead', rest', whole', isLead⟩ :=
      rules.mp (same.mpr ((find?_behindKeyword heading).mpr ⟨lead, rest, whole, other⟩))
    have cut := congrArg (List.takeWhile (!·.isContent)) (whole.symm.trans whole')
    rw [takeWhile_isContent other, takeWhile_isContent isLead.isContent_eq_false] at cut
    exact cut ▸ isLead
  · obtain ⟨c, found, rules⟩ := isRules_iff_lead heading
    refine ⟨c, found, rules.trans (Iff.trans ?_ (find?_behindKeyword heading).symm)⟩
    constructor
    · rintro ⟨lead, rest, whole, isLead⟩
      exact ⟨lead, rest, whole, isLead.isContent_eq_false⟩
    · rintro ⟨lead, rest, whole, other⟩
      exact ⟨lead, rest, whole, plain h heading lead rest whole other⟩

/-- A step that belongs to nothing stands in front of the first rule, and there are no scenarios at
all: the rule is not found, and the content is scenarios. -/
theorem content_decided_step :
    let p := parse ⟨true⟩ "Feature: f\nGiven x\nRule: r\n".toList
    p.feature.opening.heading.map (fun h =>
        ((p.behindKeyword h).filter (·.kind.isContent)).map Token.kind) = some [.header .rule] ∧
      p.content?.map ContentView.isRules = some false ∧ ¬ p.DecidesByFirst := by
  intro p
  have kinds : p.feature.opening.heading.map (fun h =>
      ((p.behindKeyword h).filter (·.kind.isContent)).map Token.kind) = some [.header .rule] := by
    decide +kernel
  have scenarios : p.content?.map ContentView.isRules = some false := by decide +kernel
  refine ⟨kinds, scenarios, fun first => ?_⟩
  obtain ⟨h, heading, only⟩ := Option.map_eq_some_iff.mp kinds
  obtain ⟨c, found, same⟩ := first h heading
  have rule : ((p.behindKeyword h).find? (·.kind.isContent)).map Token.kind =
      some (.header .rule) := by
    rw [← List.head?_filter, ← List.head?_map, only]
    rfl
  rw [Option.mem_def.mp found, Option.map_some, Option.some.injEq] at scenarios
  simp [scenarios, rule] at same

end Parsed

end FeatureFile
