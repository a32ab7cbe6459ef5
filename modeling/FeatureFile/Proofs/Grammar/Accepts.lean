import Mathlib.Data.List.Chain
import FeatureFile.Proofs.Document.OpenFence
import FeatureFile.Proofs.Grammar.CompleteFeature
import FeatureFile.Proofs.Grammar.Segments
import FeatureFile.Proofs.Grammar.Sound

namespace FeatureFile

open Grammar
open RegularExpression (char star)

namespace Grammar

structure IsCalm (items : List Item) : Prop where
  quiet : Item.IsQuiet items
  next : next items ≠ some .prose

lemma IsCalm.nil : IsCalm [] :=
  ⟨.nil, by simp [Grammar.next]⟩

lemma IsCalm.append {items items' : List Item} (h : IsCalm items) (h' : IsCalm items') :
    IsCalm (items ++ items') := by
  refine ⟨?_, ?_⟩
  · rw [Item.IsQuiet, List.map_append, List.isChain_append]
    refine ⟨h.quiet, h'.quiet, fun a _ b hb _ prose => h'.next ?_⟩
    rw [List.head?_map, prose] at hb
    exact hb
  · cases items with
    | nil => exact h'.next
    | cons => exact h.next

lemma isQuiet_of_ne_doc {items : List Item} (h : ∀ i ∈ items, i.symbol ≠ .doc) :
    Item.IsQuiet items := by
  refine (List.pairwise_of_forall_mem_list fun a ha b _ doc => ?_).isChain
  obtain ⟨i, hi, rfl⟩ := List.mem_map.mp ha
  exact absurd doc (h i hi)

section

variable {good : Item → Prop} {s : Symbol}

lemma isCalm_char (other : s ≠ .prose) : Yields good IsCalm (char s) := by
  intro items spelled
  obtain ⟨i, rfl, rfl, -⟩ := spells_char.mp spelled
  exact ⟨.singleton _, by simpa [next] using other⟩

lemma isCalm_header (prose : s ≠ .prose) (doc : s ≠ .doc) : Yields good IsCalm (header s) := by
  intro items spelled
  obtain ⟨_, below, rfl, front, text⟩ := spells_mul.mp spelled
  obtain ⟨i, rfl, rfl, -⟩ := spells_char.mp front
  refine ⟨isQuiet_of_ne_doc (List.forall_mem_append.mpr ⟨by simpa using doc,
    fun j hj => ?_⟩), by simpa [next] using prose⟩
  rw [(spells_star_char.mp text j hj).1]
  decide

lemma isCalm_heading (prose : s ≠ .prose) (doc : s ≠ .doc) : Yields good IsCalm (heading s) :=
  have tags := (isCalm_char (s := .tags) (by decide)).star .nil .append
  tags.mul .append (isCalm_header prose doc)

lemma isCalm_steps : Yields good IsCalm (star step) :=
  have keyword := isCalm_char (s := .step) (by decide)
  have doc := (isCalm_char (s := .doc) (by decide)).opt .nil
  have rows := (isCalm_char (s := .row) (by decide)).star .nil .append
  ((keyword.mul .append doc).mul .append rows).star .nil .append

lemma isCalm_items : Yields good IsCalm (star item) :=
  have row := isCalm_char (s := .row) (by decide)
  have front := isCalm_heading (s := .examples) (by decide) (by decide)
  have table := front.mul .append (row.mul .append (row.star .nil .append))
  have scenario :=
    (isCalm_heading (s := .scenario) (by decide) (by decide)).mul .append isCalm_steps
  have outline := (isCalm_heading (s := .outline) (by decide) (by decide)).mul .append isCalm_steps
  (scenario.add
    (outline.mul .append (table.mul .append (table.star .nil .append)))).star .nil .append

lemma isCalm_feature : Yields good IsCalm feature :=
  have background :=
    ((isCalm_header (s := .background) (by decide) (by decide)).mul .append isCalm_steps).opt .nil
  have front := isCalm_heading (s := .feature) (by decide) (by decide)
  have head := isCalm_heading (s := .rule) (by decide) (by decide)
  have rule := (head.mul .append background).mul .append isCalm_items
  (front.mul .append background).mul .append
    ((rule.mul .append (rule.star .nil .append)).add isCalm_items)

end

end Grammar

lemma Heading.kind?_ofLines_some (opened : Line × List Token) (ls : List RawLine) :
    kind? (Item.ofLines (some opened) ls) = none := by
  obtain ⟨b, items, block⟩ := Item.ofLines_some_eq_cons opened ls
  rw [block]
  rfl

namespace Opening

lemma kind?_ofLines (word : HeaderWord) (ls : List RawLine) :
    Heading.kind? (Item.ofLines none ls) = some (.header word) ↔
      kindBehindTags ls = .header word := by
  induction ls with
  | nil => simp [Item.ofLines, Heading.kind?, kindBehindTags]
  | cons l rest ih =>
    rw [Item.ofLines]
    cases here : l.significant? with
    | none => simpa only [kindBehindTags_cons_none rest here] using ih
    | some found =>
      rw [kindBehindTags_cons_some rest here]
      by_cases fence : found.kind = .fence
      · simp [fence, Heading.kind?_ofLines_some]
      · by_cases tags : found.kind = .atSign
        · simpa [Heading.kind?, tags] using ih
        · simp only [fence, tags, if_false, Heading.kind?, Option.ite_none_right_eq_some,
            Option.some.injEq]
          refine ⟨And.right, fun same => ⟨by rw [same]; rfl, same⟩⟩

lemma ofLines_skipJunk {ls : List RawLine} (h : kindBehindTags ls = .header .feature) :
    Item.ofLines none (skipJunk ls).2 = Item.ofLines none ls := by
  fun_induction skipJunk ls with
  | case1 => rfl
  | case2 l rest blank ih =>
    rw [ih (kindBehindTags_cons_none rest blank ▸ h), Item.ofLines_cons_blank rest blank]
  | case3 => rfl
  | case4 l rest found here goes ih =>
      simp [h, endsJunk, TokenKind.isHeader, TokenKind.isExamples] at goes

end Opening

namespace Feature

variable (eof : Token) {ls : List RawLine}

lemma kindBehindTags_of_missing (h : (ofLines eof ls).opening.missing = none) :
    Opening.kindBehindTags ls = .header .feature := by
  by_contra other
  simp [ofLines, Opening.take, Opening.missing?, other] at h

lemma hasError_of_take? {h : Heading} {rest : List Item}
    (kind : Opening.kindBehindTags ls = .header .feature)
    (found : Heading.take? (Item.ofLines none ls) = some (h, rest))
    (front : h.kind = .header .feature) :
    ∃ anchor, (ofLines eof ls).tree.hasError = (h.tags.any Line.hasFaultyTags ||
      ((Background.take eof.start rest).1.any (·.tree.hasError) ||
        ((Content.ofItems eof.start (Background.take eof.start rest).2).tree anchor).hasError)) := by
  have taken :
      Opening.takeHeading (Item.ofLines none (Opening.skipJunk ls).2) = (some h, rest) := by
    rw [Opening.ofLines_skipJunk kind, Opening.takeHeading, found]
    exact if_pos front
  refine ⟨Item.startOf eof.start rest, ?_⟩
  simp [hasError_tree, ofLines, Opening.take, taken, Opening.missing?, kind]

lemma spells_of_hasError (clean : (ofLines eof ls).tree.hasError = false) :
    Spells Item.IsClean feature (Item.ofLines none ls) := by
  have kind : Opening.kindBehindTags ls = .header .feature := by
    apply kindBehindTags_of_missing eof
    simp only [hasError_tree, Bool.or_eq_false_iff] at clean
    simpa using clean.1
  obtain ⟨⟨h, rest⟩, found, front⟩ := Option.map_eq_some_iff.mp
    ((Heading.kind?_eq _).symm.trans ((Opening.kind?_ofLines .feature ls).mpr kind))
  obtain ⟨anchor, error⟩ := hasError_of_take? eof kind found front
  simp only [error, Bool.or_eq_false_iff] at clean
  obtain ⟨tags, background, content⟩ := clean
  have heading := (Heading.isFormed_of_take? found).spells tags
  rw [front] at heading
  have whole :=
    (heading.mul (Background.spells_take background)).mul (Content.spells_ofItems content)
  rw [List.append_assoc, Background.items_take, Heading.items_of_take? found] at whole
  exact whole

theorem hasError_ofLines (proper : ∀ i ∈ Item.ofLines none ls, i.IsProper) :
    (ofLines eof ls).tree.hasError = false ↔
      Spells Item.IsClean feature (Item.ofLines none ls) := by
  refine ⟨spells_of_hasError eof, fun spelled => ?_⟩
  -- Each part is read up to where its word ends, because of what the next one begins with.
  obtain ⟨_, body, whole, front, content⟩ := spells_mul.mp (spelled.and proper)
  obtain ⟨_, first, rfl, front, background⟩ := spells_mul.mp front
  have below := Content.follows_of_spells content
  obtain ⟨h, found, symbol, tags⟩ := Heading.take?_of_spells rfl front
    (Background.next_ne_prose background below.next_ne_prose)
  have kind : h.kind = .header .feature := (Symbol.ofKind_eq_iff rfl).mp symbol
  rw [← List.append_assoc, ← whole] at found
  have lines : Opening.kindBehindTags ls = .header .feature := by
    rw [← Opening.kind?_ofLines, Heading.kind?_eq, found, ← kind]
    rfl
  obtain ⟨anchor, error⟩ := hasError_of_take? eof lines found kind
  obtain ⟨b, taken, sound⟩ := Background.take_append background below eof.start
  rw [error, tags, taken, sound, Content.hasError_of_spells content]
  rfl

theorem hasError_iff_segments (scanned : Scanned false ls) :
    (ofLines eof ls).tree.hasError = false ↔
      (∀ g ∈ segments false ls, g.clean) ∧
      (segments false ls).map Segment.symbol ∈ feature.matches' := by
  have items := Item.isScanned_ofLines none scanned (by simp)
  have symbols (same : (Item.ofLines none ls).map Item.segment = segments false ls) :
      (Item.ofLines none ls).map Item.symbol = (segments false ls).map Segment.symbol := by
    rw [← same, List.map_map]
    exact List.map_congr_left fun i _ => i.symbol_segment.symm
  rw [hasError_ofLines eof fun i hi => (items i hi).proper]
  constructor
  · intro spelled
    -- The grammar has no free text behind a doc string.
    have same := Item.map_segment_ofLines none scanned (.inr (isCalm_feature _ spelled).quiet)
    refine ⟨fun g hg => ?_, symbols same ▸ spelled.word⟩
    obtain ⟨i, hi, rfl⟩ := List.mem_map.mp (same ▸ hg)
    exact (items i hi).clean.mp (spelled.good i hi)
  · rintro ⟨clean, word⟩
    have same := Item.map_segment_ofLines none scanned (.inl clean)
    refine ⟨symbols same ▸ word, fun i hi => (items i hi).clean.mpr (clean _ ?_)⟩
    exact same ▸ List.mem_map_of_mem hi

end Feature

/-- The parser accepts exactly its grammar: a text has no error if and only if all its segments are
clean and they are a word of it. -/
theorem Parsed.hasError_eq_false_iff (options : Options) (text : List Char) :
    let p := parse options text
    let segs := segments false (RawLine.ofTokens p.stream.content)
    p.hasError = false ↔
      (∀ g ∈ segs, g.clean) ∧ segs.map Segment.symbol ∈ Grammar.feature.matches' :=
  Feature.hasError_iff_segments _ (scanned_ofText text)

end FeatureFile
