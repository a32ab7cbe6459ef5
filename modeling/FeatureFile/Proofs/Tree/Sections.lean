import FeatureFile.Proofs.Document.Headers
import FeatureFile.Proofs.Tree.Complete
import FeatureFile.Proofs.Tree.Rank
import FeatureFile.Proofs.Tree.Shaped

namespace FeatureFile

open FeatureFile.Tree (leaf node built nodesOf Fits)
open Item (headers)

namespace Tree

def isScenario (t : Tree) : Bool :=
  t.ofRule .scenario || t.ofRule .scenarioOutline

def keyword? (t : Tree) : Option Token :=
  t.ownTokens.find? (·.kind.isHeader)

lemma rank_of_ofRule {t : Tree} {rule : Rule} (h : t.ofRule rule) : t.rank = rule.rank := by
  cases t with
  | leaf t => simp [ofRule, rule?] at h
  | node rule' _ _ _ =>
    obtain rfl : rule' = rule := by simpa [ofRule, rule?] using h
    rfl

lemma rank_of_isScenario {t : Tree} (h : t.isScenario) : t.rank = Rule.scenario.rank := by
  rcases Bool.or_eq_true_iff.mp h with h | h
  · exact rank_of_ofRule h
  · exact (rank_of_ofRule h).trans rfl

lemma filter_nodesOf_eq_nil {p : Tree → Bool} {n : Nat} {ts : List Tree}
    (low : ∀ m ∈ nodesOf ts, m.rank < n) (high : ∀ m, p m → n ≤ m.rank) :
    (nodesOf ts).filter p = [] := by
  rw [List.filter_eq_nil_iff]
  exact fun m hm here => absurd (low m hm) (Nat.not_lt.mpr (high m here))

lemma Fits.rank_lt_of_node {rule : Rule} {anchor : Mark} {recovered : Bool} {cs : List Tree}
    {e : RegularExpression Part} (h : Fits e [.node rule anchor recovered cs]) :
    ∀ m ∈ nodesOf cs, m.rank < rule.rank := by
  have nodes := h.nodes
  rw [nodesOf_cons, nodes_node, nodesOf_nil, List.append_nil] at nodes
  obtain ⟨self, below⟩ := List.forall_mem_cons.mp nodes
  exact rank_lt_of_mem_nodesOf below (rank_lt_of_mem_children self)

lemma filter_isScenario_eq_nil {e : RegularExpression Part} {ts : List Tree} (h : Fits e ts)
    (low : ∀ a ∈ Shape.letters e, a.rank < Rule.scenario.rank) :
    (nodesOf ts).filter isScenario = [] :=
  filter_nodesOf_eq_nil (h.rank_lt low) fun _ here => Nat.le_of_eq (rank_of_isScenario here).symm

lemma filter_businessRule_eq_nil {e : RegularExpression Part} {ts : List Tree} (h : Fits e ts)
    (low : ∀ a ∈ Shape.letters e, a.rank < Rule.businessRule.rank) :
    (nodesOf ts).filter (ofRule .businessRule) = [] :=
  filter_nodesOf_eq_nil (h.rank_lt low) fun _ here => Nat.le_of_eq (rank_of_ofRule here).symm

end Tree

lemma Heading.filterMap_token?_trees (h : Heading) (ts : List Tree) :
    ∃ rest, (h.trees ++ ts).filterMap Tree.token? = h.keyword :: rest := by
  have tags : (Line.tagTrees h.tags).filterMap Tree.token? = [] := by
    cases h.tags <;> rfl
  have front : ∃ more, h.header.headerTrees = leaf h.keyword :: more := by
    rw [Line.headerTrees]
    split
    · exact ⟨_, rfl⟩
    · split <;> exact ⟨_, rfl⟩
  obtain ⟨more, front⟩ := front
  rw [trees, front, List.filterMap_append, List.filterMap_append, List.filterMap_append, tags]
  exact ⟨_, rfl⟩

lemma Heading.find?_trees {h : Heading} (formed : h.IsFormed) (ts : List Tree) :
    ((h.trees ++ ts).filterMap Tree.token?).find? (·.kind.isHeader) = some h.keyword := by
  obtain ⟨rest, tokens⟩ := h.filterMap_token?_trees ts
  have header : h.keyword.kind.isHeader := formed.header
  rw [tokens, List.find?_cons_of_pos (by simpa using header)]

namespace Scenario

variable {s : Scenario}

lemma keyword?_tree (formed : s.IsFormed) : s.tree.keyword? = some s.heading.keyword :=
  Heading.find?_trees formed.heading _

lemma filter_nodes (formed : s.IsFormed) (lexed : ∀ i ∈ s.items, i.IsLexed) :
    s.tree.nodes.filter Tree.isScenario = [s.tree] := by
  have below := (Scenario.fits_tree formed lexed).rank_lt_of_node
  have rank : s.rule.rank = Rule.scenario.rank := by
    rw [rule]
    split <;> rfl
  have self (cs : List Tree) :
      (node s.rule s.heading.head.start s.isFaulty cs).isScenario := by
    rw [rule]
    split <;> rfl
  have none := Tree.filter_nodesOf_eq_nil (rank ▸ below)
    fun _ here => Nat.le_of_eq (Tree.rank_of_isScenario here).symm
  rw [tree, Tree.nodes_node, List.filter_cons_of_pos (self _), none]

end Scenario

lemma Scenarios.filter_nodes {s : Scenarios} (formed : s.IsFormed)
    (lexed : ∀ i ∈ s.items, i.IsLexed) :
    s.tree.nodes.filter Tree.isScenario = s.members.map Scenario.tree := by
  obtain ⟨anchor, entries⟩ := s
  have other (recovered : Bool) (cs : List Tree) :
    (node .scenarios anchor recovered cs).isScenario = false := rfl
  rw [tree, sectionTree, Tree.nodes_node, List.filter_cons_of_neg (by simp [other]), members]
  simp only [IsFormed, items] at formed lexed ⊢
  induction entries with
  | nil => rfl
  | cons e entries ih =>
    obtain ⟨form, forms⟩ := List.forall_mem_cons.mp formed
    obtain ⟨own, others⟩ := List.forall_mem_append.mp lexed
    rw [List.flatMap_cons, Tree.nodesOf_append, List.filter_append, ih forms others]
    cases e with
    | placed s => simp [Entry.trees, Entry.placed?, Scenario.filter_nodes form own]
    | stray i => simp [Entry.trees, Item.trees, Entry.placed?, List.filterMap_cons]

namespace BusinessRule

variable {r : BusinessRule}

lemma keyword?_tree (formed : r.IsFormed) : r.tree.keyword? = some r.heading.keyword :=
  Heading.find?_trees formed.heading _

lemma filter_isScenario_nodes (formed : r.IsFormed) (lexed : ∀ i ∈ r.items, i.IsLexed) :
    r.tree.nodes.filter Tree.isScenario = r.scenarios.members.map Scenario.tree := by
  obtain ⟨front, scenarios⟩ := List.forall_mem_append.mp lexed
  obtain ⟨heading, background⟩ := List.forall_mem_append.mp front
  have header := Tree.filter_isScenario_eq_nil (Heading.fits_trees (p := (· = .header .rule))
    formed.heading heading (by simp [formed.kind])) (by decide)
  have between := Tree.filter_isScenario_eq_nil
    (Background.fits_trees formed.background background) (by decide)
  have inner := Scenarios.filter_nodes formed.scenarios scenarios
  have other (cs : List Tree) :
    (node .businessRule r.heading.head.start false cs).isScenario = false := rfl
  rw [tree, built, Tree.nodes_node, List.filter_cons_of_neg (by simp [other])]
  simp [header, between, inner]

lemma filter_businessRule_nodes (formed : r.IsFormed) (lexed : ∀ i ∈ r.items, i.IsLexed) :
    r.tree.nodes.filter (Tree.ofRule .businessRule) = [r.tree] := by
  have below := (BusinessRule.fits_tree formed lexed).rank_lt_of_node
  have high (t : Tree) (here : t.ofRule .businessRule) : Rule.businessRule.rank ≤ t.rank :=
    Nat.le_of_eq (Tree.rank_of_ofRule here).symm
  have none := Tree.filter_nodesOf_eq_nil below high
  rw [tree, built, Tree.nodes_node, List.filter_cons_of_pos rfl, none]

end BusinessRule

namespace Content

variable {c : Content} (anchor : Mark)

lemma filter_isScenario_nodes (formed : c.IsFormed) (lexed : ∀ i ∈ c.items, i.IsLexed) :
    (c.tree anchor).nodes.filter Tree.isScenario = c.members.map Scenario.tree := by
  cases c with
  | scenarios s => exact Scenarios.filter_nodes formed lexed
  | rules es =>
    obtain ⟨rs, rfl, -, each⟩ := formed.rules_eq
    rw [items_rules] at lexed
    have other (cs : List Tree) : (node .businessRules anchor false cs).isScenario = false := rfl
    rw [tree_rules, built, Tree.nodes_node, List.filter_cons_of_neg (by simp [other]), members,
      Entry.filterMap_placed?, List.map_eq_flatMap, Tree.nodesOf_flatMap, List.filter_flatMap, List.map_flatMap]
    refine List.flatMap_congr fun r hr => ?_
    simpa using BusinessRule.filter_isScenario_nodes (each r hr)
      fun i hi => lexed i (List.mem_flatMap.mpr ⟨r, hr, hi⟩)

lemma filter_businessRule_nodes (formed : c.IsFormed) (lexed : ∀ i ∈ c.items, i.IsLexed) :
    (c.tree anchor).nodes.filter (Tree.ofRule .businessRule) =
      c.ruleList.map BusinessRule.tree := by
  cases c with
  | scenarios s =>
    have none := Tree.filter_businessRule_eq_nil (Scenarios.fits_tree formed lexed) (by decide)
    rwa [Tree.nodesOf_cons, Tree.nodesOf_nil, List.append_nil] at none
  | rules es =>
    obtain ⟨rs, rfl, -, each⟩ := formed.rules_eq
    rw [items_rules] at lexed
    have other (cs : List Tree) :
      (node .businessRules anchor false cs).ofRule .businessRule = false := rfl
    rw [tree_rules, built, Tree.nodes_node, List.filter_cons_of_neg (by simp [other]),
      ruleList, Entry.filterMap_placed?, List.map_eq_flatMap, Tree.nodesOf_flatMap, List.filter_flatMap]
    refine List.flatMap_congr fun r hr => ?_
    simpa using BusinessRule.filter_businessRule_nodes (each r hr)
      fun i hi => lexed i (List.mem_flatMap.mpr ⟨r, hr, hi⟩)

end Content

namespace Feature

variable {f : Feature}

lemma filter_nodes_tree {p : Tree → Bool} (formed : f.IsFormed) (lexed : ∀ i ∈ f.items, i.IsLexed)
    (high : ∀ m, p m → m.rank = Rule.scenario.rank ∨ m.rank = Rule.businessRule.rank) :
    (nodesOf f.tree.children).filter p = (f.content.tree f.anchor).nodes.filter p := by
  obtain ⟨front, -⟩ := List.forall_mem_append.mp lexed
  obtain ⟨heading, background⟩ := List.forall_mem_append.mp front
  have ge (m : Tree) (here : p m) : Rule.scenario.rank ≤ m.rank := by
    rcases high m here with h | h <;> rw [h]
    decide
  have header := Tree.filter_nodesOf_eq_nil
    ((fits_headingTrees formed heading).rank_lt (by decide)) ge
  have between := Tree.filter_nodesOf_eq_nil
    ((Background.fits_trees formed.background background).rank_lt (by decide)) ge
  have body (cs : List Tree) : p (node .featureBody f.anchor false cs) = false := by
    rw [Bool.eq_false_iff]
    intro here
    rcases high _ here with h | h <;> cases h
  have junk : nodesOf (f.opening.junk.flatMap Line.tokenTrees) = [] := by
    simp [Tree.nodesOf_flatMap, Line.tokenTrees]
  simp [tree, bodyTree, built, Tree.children, junk, header, between, body]

lemma filter_headers_items {p : TokenKind → Bool} (formed : f.IsFormed)
    (lexed : ∀ i ∈ f.items, i.IsLexed) (sort : ∀ k, p k → k.isScenario ∨ k = .header .rule) :
    (headers f.items).filter (p ·.kind) = (headers f.content.items).filter (p ·.kind) := by
  have none {ts : List Token} {k : TokenKind} (other : p k = false) (h : ∀ t ∈ ts, t.kind = k) :
      ts.filter (p ·.kind) = [] := by
    rw [List.filter_eq_nil_iff]
    exact fun t ht => by simp [h t ht, other]
  have other (word : HeaderWord) (h : word = .feature ∨ word = .background) :
      p (.header word) = false := by
    rw [Bool.eq_false_iff]
    intro here
    rcases h with rfl | rfl <;> rcases sort _ here with h | h <;> cases h
  have heading : ∀ t ∈ f.opening.heading.toList.map Heading.keyword, t.kind = .header .feature := by
    intro t ht
    obtain ⟨h, hh, rfl⟩ := List.mem_map.mp ht
    exact (formed.heading h (by simpa using hh)).2
  have background : ∀ t ∈ f.background.toList.map (·.heading.keyword),
      t.kind = .header .background := by
    intro t ht
    obtain ⟨b, hb, rfl⟩ := List.mem_map.mp ht
    exact (formed.background b (by simpa using hb)).kind
  rw [headers_items formed lexed, List.filter_append, List.filter_append,
    none (other _ (.inl rfl)) heading, none (other _ (.inr rfl)) background, List.nil_append,
    List.nil_append]

lemma filter_of_keeps {p : TokenKind → Bool} {content : List Token} (formed : f.IsFormed)
    (lexed : ∀ i ∈ f.items, i.IsLexed) (sort : ∀ k, p k → k.isScenario ∨ k = .header .rule)
    (kept : Keeps (f.opening.junk.flatMap Line.tokens ++ f.items.flatMap Item.tokens) content) :
    content.filter (p ·.kind) = (headers f.content.items).filter (p ·.kind) := by
  have header (k : TokenKind) (here : p k) : k.isHeader ∧ k.isSection := by
    rcases sort k here with h | rfl
    · cases k with
      | header word => cases word <;> first | exact ⟨rfl, rfl⟩ | cases h
      | _ => cases h
    · exact ⟨rfl, rfl⟩
  have junk : (f.opening.junk.flatMap Line.tokens).filter (p ·.kind) = [] := by
    rw [List.filter_eq_nil_iff]
    intro t ht here
    obtain ⟨l, hl, ht⟩ := List.mem_flatMap.mp ht
    simpa [(header _ here).2] using formed.junk l hl t ht
  have only : (f.items.flatMap Item.tokens).filter (p ·.kind) =
      (headers f.items).filter (p ·.kind) := by
    rw [headers, List.filter_filter]
    refine List.filter_congr fun t _ => ?_
    cases here : p t.kind with
    | false => rfl
    | true => simp [(header _ here).1]
  rw [← kept.filter_eq fun t here => TokenKind.isTrivia_of_isHeader (header _ here).1,
    List.filter_append, junk, List.nil_append, only, filter_headers_items formed lexed sort]

end Feature

def Rule.ofScenario (k : TokenKind) : Rule :=
  if k = .header .outline then .scenarioOutline else .scenario

lemma Scenario.rule_eq (s : Scenario) : s.rule = .ofScenario s.heading.keyword.kind := by
  have same : s.heading.keyword.kind = s.heading.kind := rfl
  by_cases outline : s.heading.kind = .header .outline <;>
    simp [rule, isOutline, Rule.ofScenario, same, outline]

def Tree.rulesNode? (root : Tree) : Option Tree :=
  (root.child? .featureBody).bind (·.child? .businessRules)

lemma Tree.find?_append_ofRule {rule : Rule} {front : List Tree} {t : Tree}
    (low : ∀ u ∈ front, u.rank < rule.rank) (self : t.ofRule rule) :
    (front ++ [t]).find? (ofRule rule) = some t := by
  have none : front.find? (ofRule rule) = none := by
    rw [List.find?_eq_none]
    intro u hu here
    exact absurd (low u hu) (by simp [rank_of_ofRule here])
  rw [List.find?_append, none, Option.none_or, List.find?_cons_of_pos self]

lemma Feature.child?_tree {f : Feature} (formed : f.IsFormed) (lexed : ∀ i ∈ f.items, i.IsLexed) :
    f.tree.child? .featureBody = some f.bodyTree := by
  obtain ⟨front, -⟩ := List.forall_mem_append.mp lexed
  obtain ⟨heading, -⟩ := List.forall_mem_append.mp front
  refine Tree.find?_append_ofRule (List.forall_mem_append.mpr ⟨fun t ht => ?_, ?_⟩) rfl
  · obtain ⟨l, -, ht⟩ := List.mem_flatMap.mp ht
    obtain ⟨u, -, rfl⟩ := List.mem_map.mp ht
    exact Nat.zero_lt_succ _
  · exact (fits_headingTrees formed heading).rank_lt_of_mem (by decide)

lemma Feature.rulesNode?_tree {f : Feature} (formed : f.IsFormed)
    (lexed : ∀ i ∈ f.items, i.IsLexed) :
    f.tree.rulesNode? = match f.content with
      | .scenarios _ => none
      | .rules _ => some (f.content.tree f.anchor) := by
  have background : ∀ t ∈ f.background.toList.map Background.tree,
      t.rank < Rule.businessRules.rank := by
    intro t ht
    obtain ⟨b, -, rfl⟩ := List.mem_map.mp ht
    exact (by decide : Rule.background.rank < Rule.businessRules.rank)
  rw [Tree.rulesNode?, child?_tree formed lexed, Option.bind_some]
  change (f.background.toList.map Background.tree ++ [f.content.tree f.anchor]).find? _ = _
  cases f.content with
  | rules rs => exact Tree.find?_append_ofRule background rfl
  | scenarios s =>
    refine List.find?_eq_none.mpr (List.forall_mem_append.mpr ⟨fun t ht here => ?_, ?_⟩)
    · exact absurd (background t ht) (by simp [Tree.rank_of_ofRule here])
    · simp [Content.tree, Scenarios.tree, sectionTree, Tree.ofRule, Tree.rule?]

namespace Parsed

variable {options : Options} {text : List Char}

lemma filter_tokens {p : TokenKind → Bool} (sort : ∀ k, p k → k.isScenario ∨ k = .header .rule) :
    (parse options text).tokens.filter (p ·.kind) =
      (headers (parse options text).feature.content.items).filter (p ·.kind) := by
  have eof : p .eof = false := by
    rw [Bool.eq_false_iff]
    intro here
    rcases sort _ here with h | h <;> cases h
  have last : [(parse options text).stream.eof].filter (p ·.kind) = [] := by
    rw [List.filter_cons_of_neg (by simp [Stream.eof, eof]), List.filter_nil]
  rw [tokens, Stream.tokens, List.filter_append, last, List.append_nil]
  exact Feature.filter_of_keeps isFormed isLexed sort (keeps_items options text)

lemma filter_descendants {p : Tree → Bool}
    (high : ∀ m, p m → m.rank = Rule.scenario.rank ∨ m.rank = Rule.businessRule.rank) :
    let f := (parse options text).feature
    (parse options text).root.descendants.filter p =
      (f.content.tree f.anchor).nodes.filter p := by
  rw [Tree.descendants_eq_nodesOf]
  exact Feature.filter_nodes_tree isFormed isLexed high

lemma isLexed_content : ∀ i ∈ (parse options text).feature.content.items, i.IsLexed :=
  (List.forall_mem_append.mp isLexed).2

lemma filter_isScenario_descendants (options : Options) (text : List Char) :
    (parse options text).root.descendants.filter Tree.isScenario =
      (parse options text).feature.content.members.map Scenario.tree :=
  (filter_descendants fun _ here => .inl (Tree.rank_of_isScenario here)).trans
    (Content.filter_isScenario_nodes _ isFormed.content isLexed_content)

lemma filter_isScenario_tokens (options : Options) (text : List Char) :
    (parse options text).tokens.filter (·.kind.isScenario) =
      (parse options text).feature.content.members.map (·.heading.keyword) :=
  (filter_tokens fun _ => .inl).trans
    (Content.filter_scenario_headers_items isFormed.content isLexed_content)

/-- No scenario is lost and no list of rules is broken off: the nodes of scenarios are those that
the tokens tell of, and so are the rules, if there are rules at all. -/
theorem sections_correspond (options : Options) (text : List Char) :
    let p := parse options text
    (p.root.descendants.filter Tree.isScenario).map (fun n => (n.rule?, n.keyword?)) =
        (p.tokens.filter (·.kind.isScenario)).map
          (fun t => (some (Rule.ofScenario t.kind), some t)) ∧
      (p.root.rulesNode?.isSome ∧
          (p.root.descendants.filter (Tree.ofRule .businessRule)).map Tree.keyword? =
            (p.tokens.filter (·.kind = .header .rule)).map some ∨
        p.root.rulesNode? = none ∧
          ∀ n ∈ p.root.descendants, n.rule? ≠ some .businessRule) := by
  intro p
  have rules : p.root.descendants.filter (Tree.ofRule .businessRule) =
      p.feature.content.ruleList.map BusinessRule.tree :=
    (filter_descendants fun _ here => .inr (Tree.rank_of_ofRule here)).trans
      (Content.filter_businessRule_nodes _ isFormed.content isLexed_content)
  have node := Feature.rulesNode?_tree (f := p.feature) isFormed isLexed
  refine ⟨?_, ?_⟩
  · rw [filter_isScenario_descendants, filter_isScenario_tokens, List.map_map, List.map_map]
    refine List.map_congr_left fun s hs => ?_
    have formed := Content.isFormed_of_mem_members isFormed.content s hs
    exact Prod.ext (congrArg some s.rule_eq) (Scenario.keyword?_tree formed)
  · cases content : p.feature.content with
    | scenarios s =>
      rw [content] at node rules
      refine .inr ⟨node, fun n hn rule => ?_⟩
      exact List.filter_eq_nil_iff.mp rules n hn (by simpa [Tree.ofRule] using rule)
    | rules es =>
      have formed : (Content.rules es).IsFormed := content ▸ isFormed.content
      obtain ⟨rs, rfl, -, each⟩ := formed.rules_eq
      have lexed : ∀ i ∈ (Content.rules (rs.map .placed)).items, i.IsLexed :=
        content ▸ isLexed_content
      rw [Content.items_rules] at lexed
      have tokens : p.tokens.filter (·.kind = .header .rule) = rs.map (·.heading.keyword) := by
        rw [filter_tokens (p := (· = .header .rule)) fun _ here => .inr (of_decide_eq_true here),
          content, Content.items_rules]
        exact Content.filter_rule_headers_items each lexed
      rw [content] at node rules
      refine .inl ⟨by rw [Parsed.root, node]; rfl, ?_⟩
      rw [rules, tokens, Content.ruleList, Entry.filterMap_placed?, List.map_map, List.map_map]
      exact List.map_congr_left fun r hr => BusinessRule.keyword?_tree (each r hr)

end Parsed

end FeatureFile
