import FeatureFile.Proofs.Document.Formed

namespace FeatureFile

def Entry.placed? {α : Type} : Entry α → Option α
  | placed a => some a
  | stray _ => none

def Scenarios.members (s : Scenarios) : List Scenario :=
  s.entries.filterMap Entry.placed?

namespace Content

def members : Content → List Scenario
  | scenarios s => s.members
  | rules es => (es.filterMap Entry.placed?).flatMap (·.scenarios.members)

def ruleList : Content → List BusinessRule
  | scenarios _ => []
  | rules es => es.filterMap Entry.placed?

end Content

lemma Entry.filterMap_placed? {α : Type} (as : List α) :
    (as.map placed).filterMap placed? = as := by
  rw [List.filterMap_map]
  exact List.filterMap_some

def Heading.keyword (h : Heading) : Token :=
  h.header.head

namespace TokenKind

variable {k : TokenKind}

lemma isHeader_of_isBody (h : k.isBody) : k.isHeader = false := by
  cases k <;> first | rfl | cases h

lemma isTrivia_of_isHeader (h : k.isHeader) : k.isTrivia = false := by
  cases k <;> first | rfl | cases h

lemma isScenario_of_isExamples (h : k.isExamples) : k.isScenario = false := by
  rcases Bool.or_eq_true_iff.mp h with h | h <;> rw [of_decide_eq_true h] <;> rfl

end TokenKind

namespace Item

def headers (items : List Item) : List Token :=
  (items.flatMap tokens).filter (·.kind.isHeader)

@[simp] lemma headers_nil : headers [] = [] :=
  rfl

@[simp] lemma headers_append (items items' : List Item) :
    headers (items ++ items') = headers items ++ headers items' := by
  simp [headers]

lemma headers_flatMap {α : Type} (f : α → List Item) (as : List α) :
    headers (as.flatMap f) = as.flatMap fun a => headers (f a) := by
  induction as with
  | nil => rfl
  | cons a as ih => simp [ih]

lemma headers_cons {i : Item} (lexed : i.IsLexed) (items : List Item) :
    headers (i :: items) = (if i.kind.isHeader then [i.head] else []) ++ headers items := by
  obtain ⟨rest, whole, inner⟩ := lexed.isHeader_of_mem
  have none : rest.filter (·.kind.isHeader) = [] := by
    simpa [List.filter_eq_nil_iff] using inner
  rw [headers, List.flatMap_cons, whole, List.filter_append, List.filter_cons, none, headers, kind]

variable {items : List Item}

lemma mem_headers (lexed : ∀ i ∈ items, i.IsLexed) {t : Token} (h : t ∈ headers items) :
    ∃ i ∈ items, t = i.head := by
  obtain ⟨mem, header⟩ := List.mem_filter.mp h
  obtain ⟨i, hi, ht⟩ := List.mem_flatMap.mp mem
  obtain ⟨rest, whole, inner⟩ := (lexed i hi).isHeader_of_mem
  rw [whole] at ht
  rcases List.mem_cons.mp ht with rfl | ht
  · exact ⟨i, hi, rfl⟩
  · simp [inner t ht] at header

lemma headers_eq_nil (lexed : ∀ i ∈ items, i.IsLexed) (h : ∀ i ∈ items, i.kind.isHeader = false) :
    headers items = [] := by
  induction items with
  | nil => rfl
  | cons i items ih =>
    obtain ⟨first, others⟩ := List.forall_mem_cons.mp lexed
    obtain ⟨kind, kinds⟩ := List.forall_mem_cons.mp h
    simp [headers_cons first, kind, ih others kinds]

end Item

lemma Scenarios.isFormed_of_mem_members {s : Scenarios} (formed : s.IsFormed) :
    ∀ m ∈ s.members, m.IsFormed := by
  intro m hm
  obtain ⟨e, he, here⟩ := List.mem_filterMap.mp hm
  have form := formed e he
  cases e with
  | placed s => exact Option.some.inj here ▸ form
  | stray i => cases here

lemma Content.isFormed_of_mem_members {c : Content} (formed : c.IsFormed) :
    ∀ m ∈ c.members, m.IsFormed := by
  cases c with
  | scenarios s => exact Scenarios.isFormed_of_mem_members formed
  | rules es =>
    obtain ⟨rs, rfl, -, each⟩ := formed.rules_eq
    rw [members, Entry.filterMap_placed?]
    intro m hm
    obtain ⟨r, hr, hm⟩ := List.mem_flatMap.mp hm
    exact Scenarios.isFormed_of_mem_members (each r hr).scenarios m hm

open Item (headers headers_cons headers_eq_nil headers_flatMap)

lemma Step.headers_items {s : Step} (formed : s.IsFormed) (lexed : ∀ i ∈ s.items, i.IsLexed) :
    headers s.items = [] := by
  refine headers_eq_nil lexed ?_
  obtain ⟨-, others⟩ := List.forall_mem_cons.mp lexed
  obtain ⟨block, -⟩ := List.forall_mem_append.mp others
  refine List.forall_mem_cons.mpr ⟨?_, List.forall_mem_append.mpr ⟨fun i hi => ?_, fun i hi => ?_⟩⟩
  · have step := formed.line
    change s.line.kind.isHeader = false
    cases kind : s.line.kind <;> simp_all [TokenKind.isStep, TokenKind.isHeader]
  · have here := block i hi
    obtain ⟨b, -, rfl⟩ := List.mem_map.mp hi
    rw [here.kind_block]
    rfl
  · obtain ⟨l, hl, rfl⟩ := List.mem_map.mp hi
    change l.kind.isHeader = false
    rw [formed.rows l hl]
    rfl

lemma Steps.headers_items {s : Steps} (formed : s.IsFormed) (lexed : ∀ i ∈ s.items, i.IsLexed) :
    headers s.items = [] := by
  rw [items, headers_flatMap, List.flatMap_eq_nil_iff]
  intro e he
  have own : ∀ i ∈ e.items Step.items, i.IsLexed :=
    fun i hi => lexed i (List.mem_flatMap.mpr ⟨e, he, hi⟩)
  have form := formed e he
  cases e with
  | placed s => exact Step.headers_items form own
  | stray i => exact headers_eq_nil own (by simpa [Entry.items] using TokenKind.isHeader_of_isBody form.body)

lemma Item.headers_map_line {ls : List Line} (lexed : ∀ i ∈ ls.map line, i.IsLexed)
    (h : ∀ l ∈ ls, l.kind.isHeader = false) : headers (ls.map line) = [] := by
  refine headers_eq_nil lexed fun i hi => ?_
  obtain ⟨l, hl, rfl⟩ := List.mem_map.mp hi
  exact h l hl

lemma Heading.headers_items {h : Heading} (formed : h.IsFormed)
    (lexed : ∀ i ∈ h.items, i.IsLexed) :
    headers h.items = [h.keyword] := by
  obtain ⟨tags, below⟩ := List.forall_mem_append.mp lexed
  obtain ⟨header, prose⟩ := List.forall_mem_cons.mp below
  have front := Item.headers_map_line tags fun l hl => by rw [formed.tags l hl]; rfl
  have text := Item.headers_map_line prose fun l hl => by
    have kind := formed.description l hl
    cases same : l.kind <;> simp_all [TokenKind.isProse, TokenKind.isKeyword, TokenKind.isHeader]
  have kind : (Item.line h.header).kind.isHeader := formed.header
  rw [items, Item.headers_append, headers_cons header, front, text, if_pos kind]
  rfl

lemma Examples.headers_items {e : Examples} (formed : e.IsFormed)
    (lexed : ∀ i ∈ e.items, i.IsLexed) :
    headers e.items = [e.heading.keyword] := by
  obtain ⟨heading, rows⟩ := List.forall_mem_append.mp lexed
  have table := Item.headers_map_line rows fun l hl => by rw [formed.rows l hl]; rfl
  rw [items, Item.headers_append, Heading.headers_items formed.heading heading, table,
    List.append_nil]

lemma Scenario.headers_items {s : Scenario} (formed : s.IsFormed)
    (lexed : ∀ i ∈ s.items, i.IsLexed) :
    headers s.items = s.heading.keyword :: s.examples.map (·.heading.keyword) := by
  obtain ⟨front, examples⟩ := List.forall_mem_append.mp lexed
  obtain ⟨heading, steps⟩ := List.forall_mem_append.mp front
  have below : headers (s.examples.flatMap Examples.items) =
      s.examples.map (·.heading.keyword) := by
    rw [headers_flatMap, List.map_eq_flatMap]
    refine List.flatMap_congr fun e he => ?_
    exact Examples.headers_items (formed.examples e he)
      fun i hi => examples i (List.mem_flatMap.mpr ⟨e, he, hi⟩)
  rw [items, Item.headers_append, Item.headers_append,
    Heading.headers_items formed.heading heading, Steps.headers_items formed.steps steps, below]
  rfl

lemma Background.headers_items {b : Background} (formed : b.IsFormed)
    (lexed : ∀ i ∈ b.items, i.IsLexed) : headers b.items = [b.heading.keyword] := by
  obtain ⟨heading, steps⟩ := List.forall_mem_append.mp lexed
  rw [items, Item.headers_append, Heading.headers_items formed.heading heading,
    Steps.headers_items formed.steps steps, List.append_nil]

lemma Scenario.filter_headers_items {s : Scenario} (formed : s.IsFormed)
    (lexed : ∀ i ∈ s.items, i.IsLexed) :
    (headers s.items).filter (·.kind.isScenario) = [s.heading.keyword] := by
  have own : s.heading.keyword.kind.isScenario := formed.kind
  have others : (s.examples.map (·.heading.keyword)).filter (·.kind.isScenario) = [] := by
    rw [List.filter_eq_nil_iff]
    intro t ht
    obtain ⟨e, he, rfl⟩ := List.mem_map.mp ht
    have kind : e.heading.keyword.kind.isExamples := (formed.examples e he).kind
    simp [TokenKind.isScenario_of_isExamples kind]
  rw [headers_items formed lexed, List.filter_cons_of_pos (by simpa using own), others]

lemma Scenarios.filter_headers_items {s : Scenarios} (formed : s.IsFormed)
    (lexed : ∀ i ∈ s.items, i.IsLexed) :
    (headers s.items).filter (·.kind.isScenario) = s.members.map (·.heading.keyword) := by
  obtain ⟨anchor, entries⟩ := s
  simp only [IsFormed, items, members] at formed lexed ⊢
  induction entries with
  | nil => rfl
  | cons e entries ih =>
    obtain ⟨form, forms⟩ := List.forall_mem_cons.mp formed
    obtain ⟨own, others⟩ := List.forall_mem_append.mp lexed
    rw [List.flatMap_cons, Item.headers_append, List.filter_append, ih forms others]
    cases e with
    | placed s => rw [Entry.items, Scenario.filter_headers_items form own]; rfl
    | stray i =>
      have first := headers_cons (own i (by simp [Entry.items])) []
      have kind : i.head.kind.isScenario = false := form
      rw [Entry.items, first]
      split <;> simp [Entry.placed?, List.filterMap_cons, kind]

namespace BusinessRule

variable {r : BusinessRule}

lemma headers_items (formed : r.IsFormed) (lexed : ∀ i ∈ r.items, i.IsLexed) :
    headers r.items = r.heading.keyword ::
      (r.background.toList.map (·.heading.keyword) ++ headers r.scenarios.items) := by
  obtain ⟨front, scenarios⟩ := List.forall_mem_append.mp lexed
  obtain ⟨heading, background⟩ := List.forall_mem_append.mp front
  have below : headers (r.background.toList.flatMap Background.items) =
      r.background.toList.map (·.heading.keyword) := by
    rw [headers_flatMap, List.map_eq_flatMap]
    refine List.flatMap_congr fun b hb => ?_
    exact Background.headers_items (formed.background b (by simpa using hb))
      fun i hi => background i (List.mem_flatMap.mpr ⟨b, hb, hi⟩)
  rw [items, Item.headers_append, Item.headers_append,
    Heading.headers_items formed.heading heading, below]
  rfl

lemma kind_of_mem_background (formed : r.IsFormed) :
    ∀ t ∈ r.background.toList.map (·.heading.keyword), t.kind = .header .background := by
  intro t ht
  obtain ⟨b, hb, rfl⟩ := List.mem_map.mp ht
  exact (formed.background b (by simpa using hb)).kind

lemma filter_scenario_headers_items (formed : r.IsFormed) (lexed : ∀ i ∈ r.items, i.IsLexed) :
    (headers r.items).filter (·.kind.isScenario) = r.scenarios.members.map (·.heading.keyword) := by
  have own : r.heading.keyword.kind = .header .rule := formed.kind
  have between : (r.background.toList.map (·.heading.keyword)).filter (·.kind.isScenario) = [] := by
    rw [List.filter_eq_nil_iff]
    intro t ht
    simp [kind_of_mem_background formed t ht, TokenKind.isScenario]
  rw [headers_items formed lexed, List.filter_cons_of_neg (by simp [own, TokenKind.isScenario]),
    List.filter_append, between, List.nil_append,
    Scenarios.filter_headers_items formed.scenarios (List.forall_mem_append.mp lexed).2]

lemma filter_rule_headers_items (formed : r.IsFormed) (lexed : ∀ i ∈ r.items, i.IsLexed) :
    (headers r.items).filter (·.kind = .header .rule) = [r.heading.keyword] := by
  have own : r.heading.keyword.kind = .header .rule := formed.kind
  have below := (List.forall_mem_append.mp lexed).2
  have none : (r.background.toList.map (·.heading.keyword) ++ headers r.scenarios.items).filter
      (·.kind = .header .rule) = [] := by
    rw [List.filter_append, List.append_eq_nil_iff, List.filter_eq_nil_iff,
      List.filter_eq_nil_iff]
    refine ⟨fun t ht => by simp [kind_of_mem_background formed t ht], fun t ht => ?_⟩
    obtain ⟨i, hi, rfl⟩ := Item.mem_headers below ht
    simpa [Item.kind] using formed.own i hi
  rw [headers_items formed lexed, List.filter_cons_of_pos (by simp [own]), none]

end BusinessRule

namespace Content

variable {c : Content}

lemma filter_scenario_headers_items (formed : c.IsFormed) (lexed : ∀ i ∈ c.items, i.IsLexed) :
    (headers c.items).filter (·.kind.isScenario) = c.members.map (·.heading.keyword) := by
  cases c with
  | scenarios s => exact Scenarios.filter_headers_items formed lexed
  | rules es =>
    obtain ⟨rs, rfl, -, each⟩ := formed.rules_eq
    rw [items_rules] at lexed ⊢
    rw [members, Entry.filterMap_placed?, headers_flatMap, List.filter_flatMap, List.map_flatMap]
    refine List.flatMap_congr fun r hr => ?_
    exact BusinessRule.filter_scenario_headers_items (each r hr)
      fun i hi => lexed i (List.mem_flatMap.mpr ⟨r, hr, hi⟩)

lemma filter_rule_headers_items {rs : List BusinessRule} (formed : ∀ r ∈ rs, r.IsFormed)
    (lexed : ∀ i ∈ rs.flatMap BusinessRule.items, i.IsLexed) :
    (headers (rs.flatMap BusinessRule.items)).filter (·.kind = .header .rule) =
      rs.map (·.heading.keyword) := by
  rw [headers_flatMap, List.filter_flatMap, List.map_eq_flatMap]
  refine List.flatMap_congr fun r hr => ?_
  exact BusinessRule.filter_rule_headers_items (formed r hr)
    fun i hi => lexed i (List.mem_flatMap.mpr ⟨r, hr, hi⟩)

end Content

lemma Feature.headers_items {f : Feature} (formed : f.IsFormed) (lexed : ∀ i ∈ f.items, i.IsLexed) :
    headers f.items = f.opening.heading.toList.map Heading.keyword ++
      f.background.toList.map (·.heading.keyword) ++ headers f.content.items := by
  obtain ⟨front, content⟩ := List.forall_mem_append.mp lexed
  obtain ⟨heading, background⟩ := List.forall_mem_append.mp front
  rw [items, Item.headers_append, Item.headers_append, headers_flatMap, headers_flatMap,
    List.map_eq_flatMap, List.map_eq_flatMap]
  congr 2
  · refine List.flatMap_congr fun h hh => ?_
    exact Heading.headers_items (formed.heading h (by simpa using hh)).1
      fun i hi => heading i (List.mem_flatMap.mpr ⟨h, hh, hi⟩)
  · refine List.flatMap_congr fun b hb => ?_
    exact Background.headers_items (formed.background b (by simpa using hb))
      fun i hi => background i (List.mem_flatMap.mpr ⟨b, hb, hi⟩)

end FeatureFile
