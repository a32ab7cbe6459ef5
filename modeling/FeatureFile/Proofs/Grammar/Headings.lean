import FeatureFile.Proofs.Grammar.Follow

namespace FeatureFile

open Grammar
open RegularExpression (char star)

variable {pre rest : List Item}

namespace Grammar

lemma formed_of_spells_header {s : Symbol} (isHeader : s.isHeader)
    (h : Spells Item.IsSound (header s) pre) :
    ∃ l ls, pre = .line l :: ls.map .line ∧ Symbol.ofKind l.kind = s ∧
      Heading.IsFormed ⟨[], l, ls⟩ := by
  obtain ⟨_, _, rfl, word, prose⟩ := spells_mul.mp h
  obtain ⟨l, rfl, symbol, -⟩ := line_of_spells (by rintro rfl; cases isHeader) word
  obtain ⟨ls, rfl, each⟩ := lines_of_spells (by decide) prose
  refine ⟨l, ls, rfl, symbol, by simp, ?_, fun l' hl => ?_⟩
  · exact Symbol.isHeader_of_isHeader_ofKind (symbol ▸ isHeader)
  · exact Symbol.isProse_of_ofKind (each l' hl).1 (each l' hl).2.2.2

lemma formed_of_spells_heading {s : Symbol} (isHeader : s.isHeader)
    (h : Spells Item.IsSound (heading s) pre) :
    ∃ h : Heading, pre = h.items ∧ Symbol.ofKind h.kind = s ∧ h.IsFormed ∧
      h.tags.any Line.hasFaultyTags = false := by
  obtain ⟨_, _, rfl, tags, front⟩ := spells_mul.mp h
  obtain ⟨ts, rfl, each⟩ := lines_of_spells (by decide) tags
  obtain ⟨l, ls, rfl, symbol, formed⟩ := formed_of_spells_header isHeader front
  have signs : ∀ t ∈ ts, t.kind = .atSign := fun t ht => (Symbol.ofKind_eq_iff rfl).mp (each t ht).1
  refine ⟨⟨ts, l, ls⟩, rfl, symbol, ⟨signs, formed.header, formed.description⟩, ?_⟩
  rw [List.any_eq_false]
  intro t ht
  simpa using (each t ht).2.1 (signs t ht)

end Grammar

namespace Heading.IsFormed

variable {h : Heading}

lemma takeLines_description (formed : h.IsFormed) (stop : next rest ≠ some .prose) :
    Item.takeLines TokenKind.isProse (h.description.map .line ++ rest) = (h.description, rest) :=
  Item.takeLines_append_of_next formed.description (fun _ => Symbol.ofKind_of_isProse) stop

lemma take?_append (formed : h.IsFormed) (stop : next rest ≠ some .prose) :
    take? (h.items ++ rest) = some (h, rest) := by
  have tags : Item.takeLines (· = .atSign)
        (h.tags.map .line ++ .line h.header :: (h.description.map .line ++ rest)) =
      (h.tags, .line h.header :: (h.description.map .line ++ rest)) := by
    apply Item.takeLines_append (fun l hl => by simp [formed.tags l hl])
    intro l below here
    obtain ⟨same, -⟩ := List.cons.inj here
    have header : h.header.kind.isHeader := formed.header
    rw [Item.line.inj same] at header
    exact decide_eq_false fun sign => by simp [sign, TokenKind.isHeader] at header
  rw [items, List.append_assoc, List.cons_append]
  exact take?_eq_some.mpr ⟨_, tags, formed.header, formed.takeLines_description stop⟩

lemma kind?_append (formed : h.IsFormed) : kind? (h.items ++ rest) = some h.kind := by
  obtain ⟨tags, l, ls⟩ := h
  have header : l.kind.isHeader := formed.header
  have untagged : l.kind ≠ .atSign := by
    intro sign
    simp [sign, TokenKind.isHeader] at header
  have signs : ∀ t ∈ tags, t.kind = .atSign := formed.tags
  clear formed
  induction tags with
  | nil => simp [items, kind?, untagged, header, Heading.kind]
  | cons t tags ih =>
    obtain ⟨first, others⟩ := List.forall_mem_cons.mp signs
    have same := ih others
    simp only [items, List.map_cons, List.cons_append, kind?, first, if_true] at same ⊢
    exact same

end Heading.IsFormed

lemma Heading.take?_of_spells {s : Symbol} (isHeader : s.isHeader)
    (front : Spells Item.IsSound (Grammar.heading s) pre) (stop : next rest ≠ some .prose) :
    ∃ h, take? (pre ++ rest) = some (h, rest) ∧ Symbol.ofKind h.kind = s ∧
      h.tags.any Line.hasFaultyTags = false := by
  obtain ⟨h, rfl, symbol, formed, clean⟩ := formed_of_spells_heading isHeader front
  exact ⟨h, formed.take?_append stop, symbol, clean⟩

namespace Grammar

def Begins (p : Symbol → Prop) (r : RegularExpression Symbol) : Prop :=
  ∀ pre, Spells Item.IsSound r pre → ∀ rest, ∃ k, Heading.kind? (pre ++ rest) = some k ∧
    p (.ofKind k)

section Begins

variable {p : Symbol → Prop} {r r' : RegularExpression Symbol}

lemma begins_heading {s : Symbol} (isHeader : s.isHeader) (sort : p s) : Begins p (heading s) := by
  intro pre spelled rest
  obtain ⟨h, rfl, symbol, formed, -⟩ := formed_of_spells_heading isHeader spelled
  exact ⟨h.kind, formed.kind?_append, symbol ▸ sort⟩

lemma Begins.mul (h : Begins p r) : Begins p (r * r') := by
  intro pre spelled rest
  obtain ⟨first, second, rfl, here, -⟩ := spells_mul.mp spelled
  rw [List.append_assoc]
  exact h first here (second ++ rest)

lemma Begins.add (h : Begins p r) (h' : Begins p r') : Begins p (r + r') := by
  intro pre spelled rest
  rcases spells_add.mp spelled with here | here
  · exact h pre here rest
  · exact h' pre here rest

lemma Begins.mono {q : Symbol → Prop} (h : Begins p r) (imp : ∀ s, p s → q s) : Begins q r := by
  intro pre spelled rest
  obtain ⟨k, here, sort⟩ := h pre spelled rest
  exact ⟨k, here, imp _ sort⟩

lemma Begins.follows (h : Begins p r) (spelled : Spells Item.IsSound (star r) pre)
    (follows : Follows p rest) :
    Follows p (pre ++ rest) := by
  rcases spells_star.mp spelled with rfl | ⟨first, others, rfl, here, -⟩
  · exact follows
  · rw [List.append_assoc]
    exact .inr (h first here (others ++ rest))

lemma begins_examples : Begins (· = .examples) examples :=
  (begins_heading (p := fun s => s = .examples) rfl rfl).mul

lemma begins_item : Begins (fun s => s = .scenario ∨ s = .outline) item :=
  (begins_heading rfl (.inl rfl)).mul.add (begins_heading rfl (.inr rfl)).mul.mul

lemma begins_rule : Begins (· = .rule) rule :=
  (begins_heading (p := fun s => s = .rule) rfl rfl).mul.mul

end Begins

end Grammar

end FeatureFile
