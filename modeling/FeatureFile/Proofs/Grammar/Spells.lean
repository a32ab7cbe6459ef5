import FeatureFile.Proofs.Grammar.Basic
import FeatureFile.Proofs.Lexeme.Shape
import FeatureFile.Proofs.Tree.Faults

namespace FeatureFile

namespace Grammar.Symbol

variable {k : TokenKind}

lemma ofKind_of_isProse (h : k.isProse) : ofKind k = .prose := by
  cases k <;> first | rfl | cases h

lemma ofKind_of_isFree (h : k.isFree) : ofKind k = .prose := by
  cases k <;> first | rfl | cases h

lemma ofKind_of_isStep (h : k.isStep) : ofKind k = .step := by
  cases k <;> first | rfl | cases h

lemma ofKind_of_isExamples (h : k.isExamples) : ofKind k = .examples := by
  rcases Bool.or_eq_true_iff.mp h with h | h <;> rw [of_decide_eq_true h] <;> rfl

lemma ofKind_of_isScenario (h : k.isScenario) :
    ofKind k = if k = .header .outline then .outline else .scenario := by
  simp only [TokenKind.isScenario, Bool.or_eq_true, decide_eq_true_eq] at h
  rcases h with (rfl | rfl) | rfl <;> rfl

end Grammar.Symbol

namespace Item

def symbol : Item → Grammar.Symbol
  | line l => .ofKind l.kind
  | block _ => .doc

def IsClean : Item → Prop
  | line l => l.kind = .atSign → l.hasFaultyTags = false
  | block b => b.closing.isSome

end Item

namespace Grammar

open RegularExpression (char star)

/-- The symbols of the items are a word of the expression, and each item is good. -/
structure Spells (good : Item → Prop) (r : RegularExpression Symbol) (items : List Item) :
    Prop where
  word : items.map Item.symbol ∈ r.matches'
  good : ∀ i ∈ items, good i

variable {good good' : Item → Prop} {r s : RegularExpression Symbol} {a : Symbol}
  {items items' : List Item}

lemma Spells.and (h : Spells good r items) (h' : ∀ i ∈ items, good' i) :
    Spells (fun i => good i ∧ good' i) r items :=
  ⟨h.word, fun i hi => ⟨h.good i hi, h' i hi⟩⟩

lemma spells_one : Spells good 1 items ↔ items = [] := by
  constructor
  · rintro ⟨word, -⟩
    simpa [Language.mem_one] using word
  · rintro rfl
    exact ⟨rfl, by simp⟩

lemma spells_char : Spells good (char a) items ↔ ∃ i, items = [i] ∧ i.symbol = a ∧ good i := by
  constructor
  · rintro ⟨word, all⟩
    obtain ⟨i, rfl, same⟩ := List.map_eq_singleton_iff.mp word
    exact ⟨i, rfl, same, all i (by simp)⟩
  · rintro ⟨i, rfl, rfl, h⟩
    exact ⟨rfl, by simpa using h⟩

lemma spells_add : Spells good (r + s) items ↔ Spells good r items ∨ Spells good s items := by
  constructor
  · rintro ⟨word | word, all⟩
    · exact .inl ⟨word, all⟩
    · exact .inr ⟨word, all⟩
  · rintro (⟨word, all⟩ | ⟨word, all⟩)
    · exact ⟨.inl word, all⟩
    · exact ⟨.inr word, all⟩

lemma Spells.mul (h : Spells good r items) (h' : Spells good s items') :
    Spells good (r * s) (items ++ items') := by
  refine ⟨?_, List.forall_mem_append.mpr ⟨h.good, h'.good⟩⟩
  rw [List.map_append, RegularExpression.matches'_mul]
  exact Language.append_mem_mul h.word h'.word

lemma spells_mul :
    Spells good (r * s) items ↔ ∃ pre post, items = pre ++ post ∧ Spells good r pre ∧
      Spells good s post := by
  constructor
  · rintro ⟨word, all⟩
    rw [RegularExpression.matches'_mul, Language.mem_mul] at word
    obtain ⟨u, hu, v, hv, whole⟩ := word
    obtain ⟨pre, post, rfl, rfl, rfl⟩ := List.map_eq_append_iff.mp whole.symm
    obtain ⟨before, behind⟩ := List.forall_mem_append.mp all
    exact ⟨pre, post, rfl, ⟨hu, before⟩, ⟨hv, behind⟩⟩
  · rintro ⟨pre, post, rfl, h, h'⟩
    exact h.mul h'

lemma spells_opt : Spells good (1 + r) items ↔ items = [] ∨ Spells good r items := by
  rw [spells_add, spells_one]

namespace Spells

lemma star_nil : Spells good (star r) [] :=
  ⟨Language.nil_mem_kstar _, by simp⟩

lemma star_cons (h : Spells good r items) (h' : Spells good (star r) items') :
    Spells good (star r) (items ++ items') := by
  refine ⟨?_, List.forall_mem_append.mpr ⟨h.good, h'.good⟩⟩
  obtain ⟨words, whole, each⟩ := Language.mem_kstar.mp h'.word
  rw [List.map_append, whole]
  exact Language.join_mem_kstar (L := _ :: words) (List.forall_mem_cons.mpr ⟨h.word, each⟩)

lemma star_induction {motive : List Item → Prop} (nil : motive [])
    (cons : ∀ pre post, Spells good r pre → Spells good (star r) post → motive post →
    motive (pre ++ post))
    (h : Spells good (star r) items) : motive items := by
  obtain ⟨words, whole, each⟩ := Language.mem_kstar.mp h.word
  have all := h.good
  clear h
  -- On the words of the repetition; the items are cut where the words are.
  induction words generalizing items with
  | nil =>
    obtain rfl : items = [] := by simpa using whole
    exact nil
  | cons w ws ih =>
    obtain ⟨pre, post, rfl, rfl, rest⟩ := List.map_eq_append_iff.mp whole
    obtain ⟨first, others⟩ := List.forall_mem_cons.mp each
    obtain ⟨before, behind⟩ := List.forall_mem_append.mp all
    have below : Spells good (star r) post := ⟨rest ▸ Language.join_mem_kstar others, behind⟩
    exact cons pre post ⟨first, before⟩ below (ih rest others behind)

variable {α : Type} {f : α → List Item} {as : List α}

lemma flatMap (h : ∀ a ∈ as, Spells good r (f a)) : Spells good (star r) (as.flatMap f) := by
  induction as with
  | nil => exact star_nil
  | cons a as ih =>
    obtain ⟨first, rest⟩ := List.forall_mem_cons.mp h
    exact first.star_cons (ih rest)

lemma flatMap_of_ne_nil (some : as ≠ []) (h : ∀ a ∈ as, Spells good r (f a)) :
    Spells good (r * star r) (as.flatMap f) := by
  cases as with
  | nil => exact absurd rfl some
  | cons a as =>
    obtain ⟨first, rest⟩ := List.forall_mem_cons.mp h
    exact first.mul (flatMap rest)

end Spells

lemma spells_star_char :
    Spells good (star (char a)) items ↔ ∀ i ∈ items, i.symbol = a ∧ good i := by
  constructor
  · intro h
    refine Spells.star_induction (motive := fun items => ∀ i ∈ items, i.symbol = a ∧ good i)
      (by simp) ?_ h
    intro pre post piece _ ih
    obtain ⟨i, rfl, here⟩ := spells_char.mp piece
    exact List.forall_mem_cons.mpr ⟨here, ih⟩
  · intro h
    induction items with
    | nil => exact .star_nil
    | cons i items ih =>
      obtain ⟨first, rest⟩ := List.forall_mem_cons.mp h
      exact (spells_char.mpr ⟨i, rfl, first⟩).star_cons (ih rest)

lemma spells_star : Spells good (star r) items ↔
      items = [] ∨ ∃ pre post, items = pre ++ post ∧ Spells good r pre ∧
      Spells good (star r) post := by
  constructor
  · intro h
    refine Spells.star_induction
      (motive := fun items => items = [] ∨ ∃ pre post, items = pre ++ post ∧
        Spells good r pre ∧ Spells good (star r) post) (.inl rfl) ?_ h
    intro pre post piece rest _
    exact .inr ⟨pre, post, rfl, piece, rest⟩
  · rintro (rfl | ⟨pre, post, rfl, piece, rest⟩)
    · exact .star_nil
    · exact piece.star_cons rest

def Yields (good : Item → Prop) (P : List Item → Prop) (r : RegularExpression Symbol) : Prop :=
  ∀ items, Spells good r items → P items

namespace Yields

variable {P : List Item → Prop}

lemma add (h : Yields good P r) (h' : Yields good P s) : Yields good P (r + s) :=
  fun items spelled => (spells_add.mp spelled).elim (h items) (h' items)

section

variable (nil : P []) (append : ∀ {items items'}, P items → P items' → P (items ++ items'))

include append in
lemma mul (h : Yields good P r) (h' : Yields good P s) : Yields good P (r * s) := by
  intro items spelled
  obtain ⟨pre, post, rfl, here, there⟩ := spells_mul.mp spelled
  exact append (h pre here) (h' post there)

include nil in
lemma opt (h : Yields good P r) : Yields good P (1 + r) := by
  intro items spelled
  rcases spells_opt.mp spelled with rfl | here
  · exact nil
  · exact h items here

include nil append in
lemma star (h : Yields good P r) : Yields good P (star r) := by
  intro items spelled
  exact Spells.star_induction (motive := P) nil (fun pre post piece _ ih =>
    append (h pre piece) ih) spelled

end

end Yields

end Grammar

end FeatureFile
