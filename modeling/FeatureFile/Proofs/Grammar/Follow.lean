import FeatureFile.Proofs.Grammar.Spells

/-!
What may come next. Reading a part goes on as long as the items allow, so it ends where its word ends
only if what follows cannot be taken for more of it.
-/

namespace FeatureFile

open Grammar
open RegularExpression (char star)

namespace Grammar.Symbol

def isBody : Symbol → Bool
  | step | row | prose | doc => true
  | _ => false

def isHeader : Symbol → Bool
  | feature | background | rule | scenario | outline | examples => true
  | _ => false

variable {k : TokenKind}

lemma ofKind_header_ne (word : HeaderWord) :
    (ofKind (.header word)).isHeader ∧ (ofKind (.header word)).isBody = false := by
  cases word <;> exact ⟨rfl, rfl⟩

lemma isBody_ofKind_of_isBody (h : k.isBody) : (ofKind k).isBody := by
  cases k <;> first | rfl | cases h

lemma isBody_of_isBody_ofKind (h : (ofKind k).isBody) (inner : k ≠ .eof) : k.isBody := by
  cases k with
  | header word => simp [ofKind_header_ne] at h
  | atSign => cases h
  | eof => exact absurd rfl inner
  | _ => rfl

lemma isHeader_of_isHeader_ofKind (h : (ofKind k).isHeader) : k.isHeader := by
  cases k <;> first | rfl | cases h

lemma isProse_of_ofKind (h : ofKind k = .prose) (inner : k ≠ .eof) : k.isProse := by
  cases k with
  | header word => cases word <;> cases h
  | eof => exact absurd rfl inner
  | _ => first | rfl | cases h

lemma isStep_of_ofKind (h : ofKind k = .step) : k.isStep := by
  cases k with
  | header word => cases word <;> cases h
  | _ => first | rfl | cases h

lemma isExamples_of_ofKind (h : ofKind k = .examples) : k.isExamples := by
  cases k with
  | header word => cases word <;> first | rfl | cases h
  | _ => cases h

lemma isScenario_of_ofKind (h : ofKind k = .scenario ∨ ofKind k = .outline) : k.isScenario := by
  cases k with
  | header word => cases word <;> first | rfl | simp [ofKind, ofHeader] at h
  | _ => simp [ofKind] at h

def kind? : Symbol → Option TokenKind
  | feature => some (.header .feature)
  | background => some (.header .background)
  | rule => some (.header .rule)
  | outline => some (.header .outline)
  | row => some .pipe
  | tags => some .atSign
  | doc => some .fence
  | _ => none

lemma ofKind_eq_iff {s : Symbol} {k' : TokenKind} (only : s.kind? = some k') :
    ofKind k = s ↔ k = k' := by
  cases s <;> cases only <;>
    cases k with
    | header word => cases word <;> simp [ofKind, ofHeader]
    | _ => simp [ofKind]

end Grammar.Symbol

namespace Heading

def kind? : List Item → Option TokenKind
  | .line l :: rest =>
    if l.kind = .atSign then kind? rest else if l.kind.isHeader then some l.kind else none
  | _ => none

lemma kind?_eq (items : List Item) : kind? items = (take? items).map (·.1.kind) := by
  induction items with
  | nil => rfl
  | cons i rest ih =>
    cases i with
    | block b => rfl
    | line l =>
      by_cases tags : l.kind = .atSign
      · rw [kind?, if_pos tags, ih]
        simp only [take?, Item.takeLines, tags, decide_true, if_true]
        split
        · split <;> rfl
        · rfl
      · by_cases header : l.kind.isHeader
        · simp [kind?, take?, Item.takeLines, tags, header, Heading.kind]
        · simp [kind?, take?, Item.takeLines, tags, header]

lemma atSign_or_isHeader {l : Line} {rest : List Item} {k : TokenKind}
    (h : kind? (.line l :: rest) = some k) : l.kind = .atSign ∨ l.kind.isHeader := by
  rw [kind?] at h
  split at h
  case isTrue tags => exact .inl tags
  case isFalse => exact .inr (Option.ite_none_right_eq_some.mp h).1

end Heading

lemma BusinessRule.startsAt_iff {items : List Item} :
    startsAt items ↔ Heading.kind? items = some (.header .rule) := by
  rw [Heading.kind?_eq, startsAt]
  split
  case h_1 found => simp [found]
  case h_2 none => simp [none]

namespace Grammar

def next (items : List Item) : Option Symbol :=
  items.head?.map Item.symbol

def Follows (p : Symbol → Prop) (rest : List Item) : Prop :=
  rest = [] ∨ ∃ k, Heading.kind? rest = some k ∧ p (.ofKind k)

namespace Follows

variable {p q : Symbol → Prop} {rest : List Item}

lemma mono (h : Follows p rest) (imp : ∀ s, p s → q s) : Follows q rest :=
  h.imp_right fun ⟨k, here, sort⟩ => ⟨k, here, imp _ sort⟩

lemma kind (h : Follows p rest) {front : Heading} {below : List Item}
    (found : Heading.take? rest = some (front, below)) : p (.ofKind front.kind) := by
  rcases h with rfl | ⟨k, here, sort⟩
  · cases found
  · rw [Heading.kind?_eq, found, Option.map_some, Option.some.injEq] at here
    exact here ▸ sort

lemma next (h : Follows p rest) : ∀ s ∈ next rest, s.isBody = false := by
  rcases h with rfl | ⟨k, here, -⟩
  · simp [Grammar.next]
  · cases rest with
    | nil => simp [Grammar.next]
    | cons i rest =>
      cases i with
      | block b => cases here
      | line l =>
        simp only [Grammar.next, List.head?_cons, Option.map_some, Option.mem_def,
          Option.some.injEq, forall_eq', Item.symbol]
        rcases Heading.atSign_or_isHeader here with tags | header
        · rw [tags]
          rfl
        · cases kind : l.kind with
          | header word => exact (Symbol.ofKind_header_ne word).2
          | _ => simp [kind, TokenKind.isHeader] at header

lemma next_ne_prose (h : Follows p rest) : Grammar.next rest ≠ some .prose :=
  fun prose => by simpa [Symbol.isBody] using h.next _ prose

end Follows

end Grammar

namespace Item

def IsProper : Item → Prop
  | line l => l.kind ≠ .fence ∧ l.kind ≠ .eof
  | block b => b.opening.kind = .fence

def IsSound (i : Item) : Prop :=
  i.IsClean ∧ i.IsProper

lemma IsProper.isBody {i : Item} (proper : i.IsProper) (h : i.symbol.isBody) : i.kind.isBody := by
  cases i with
  | line l => exact Symbol.isBody_of_isBody_ofKind h proper.2
  | block b =>
    have fence : b.opening.head.kind = .fence := proper
    simp [Item.kind, Item.head, fence, TokenKind.isBody, TokenKind.isHeader]

lemma IsProper.block_of_symbol {i : Item} (proper : i.IsProper) (h : i.symbol = .doc) :
    ∃ b, i = block b := by
  cases i with
  | line l => exact absurd ((Symbol.ofKind_eq_iff rfl).mp h) proper.1
  | block b => exact ⟨b, rfl⟩

variable {wanted : TokenKind → Bool} {ls : List Line} {rest : List Item}

lemma takeLines_append (all : ∀ l ∈ ls, wanted l.kind)
    (stop : ∀ l below, rest = line l :: below → wanted l.kind = false) :
    takeLines wanted (ls.map line ++ rest) = (ls, rest) := by
  induction ls with
  | nil =>
    rcases rest with _ | ⟨l | b, below⟩
    · rfl
    · simp [takeLines, stop l below rfl]
    · rfl
  | cons l ls ih =>
    obtain ⟨first, others⟩ := List.forall_mem_cons.mp all
    simp [takeLines, first, ih others]

lemma takeLines_append_of_next {a : Symbol} (all : ∀ l ∈ ls, wanted l.kind)
    (symbol : ∀ k, wanted k → Symbol.ofKind k = a) (stop : next rest ≠ some a) :
    takeLines wanted (ls.map line ++ rest) = (ls, rest) := by
  apply takeLines_append all
  intro l below here
  rw [Bool.eq_false_iff]
  intro more
  rw [here] at stop
  exact stop (congrArg some (symbol _ more))

end Item

namespace Grammar

variable {good : Item → Prop} {a : Symbol} {items : List Item}

lemma line_of_spells (single : a ≠ .doc) (h : Spells good (char a) items) :
    ∃ l, items = [.line l] ∧ Symbol.ofKind l.kind = a ∧ good (.line l) := by
  obtain ⟨i, rfl, symbol, here⟩ := spells_char.mp h
  cases i with
  | line l => exact ⟨l, rfl, symbol, here⟩
  | block b => exact absurd symbol.symm single

lemma lines_of_spells (single : a ≠ .doc) (h : Spells good (star (char a)) items) :
    ∃ ls : List Line, items = ls.map .line ∧ ∀ l ∈ ls, Symbol.ofKind l.kind = a ∧
      good (.line l) := by
  have each := spells_star_char.mp h
  clear h
  induction items with
  | nil => exact ⟨[], rfl, by simp⟩
  | cons i items ih =>
    obtain ⟨first, others⟩ := List.forall_mem_cons.mp each
    obtain ⟨ls, rfl, rest⟩ := ih others
    cases i with
    | line l => exact ⟨l :: ls, rfl, List.forall_mem_cons.mpr ⟨first, rest⟩⟩
    | block b => exact absurd first.1.symm single

end Grammar

end FeatureFile
