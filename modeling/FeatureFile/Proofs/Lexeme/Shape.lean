import FeatureFile.Proofs.Lexeme.Line
import FeatureFile.Proofs.Keyword
import FeatureFile.Proofs.Lexeme.Row

namespace FeatureFile

namespace TokenKind

def isFree (k : TokenKind) : Bool :=
  k.isPad || k.isLiteral || k = .text || k = .placeholder

def isVerbatim (k : TokenKind) : Bool :=
  k.isPad || k = .text

def isRowPart (k : TokenKind) : Bool :=
  k.isPad || k = .pipe || k = .cell

def isTagPart (k : TokenKind) : Bool :=
  k.isPad || k = .atSign || k = .text

end TokenKind

namespace Lexeme

def kinds (ls : List Lexeme) : List TokenKind :=
  ls.map Lexeme.kind

inductive PlainShape : List TokenKind → Prop
  | blank : PlainShape []
  | comment : PlainShape [.comment]
  | header (word : HeaderWord) {ks : List TokenKind} :
      (∀ k ∈ ks, k.isFree) → PlainShape (.header word :: .colon :: ks)
  | step (word : StepWord) {ks : List TokenKind} :
      (∀ k ∈ ks, k.isFree) → PlainShape (.step word :: ks)
  | remark (word : StepWord) : PlainShape [.step word, .comment]
  | row {ks : List TokenKind} : (∀ k ∈ ks, k.isRowPart) → IsApart ks → PlainShape (.pipe :: ks)
  | tags {ks more : List TokenKind} :
      (∀ k ∈ ks, k.isTagPart) → more = [] ∨ more = [.comment] → PlainShape (.atSign :: ks ++ more)
  | fence {ks : List TokenKind} : (∀ k ∈ ks, k.isVerbatim) → PlainShape (.fence :: ks)
  | prose {k : TokenKind} {ks : List TokenKind} :
      k.isFree → k.isPad = false → (∀ k ∈ ks, k.isFree) → PlainShape (k :: ks)

inductive FencedShape : List TokenKind → Prop
  | blank : FencedShape []
  | content {k : TokenKind} {ks : List TokenKind} :
      k.isVerbatim → k.isPad = false → (∀ k ∈ ks, k.isVerbatim) → FencedShape (k :: ks)
  | closing {ks : List TokenKind} : (∀ k ∈ ks, k.isFree) → FencedShape (.fence :: ks)

lemma kind_scan {c : Char} {rest : List Char} {kind : TokenKind} {more : Nat}
    (h : Literal.scan c rest = some (kind, more)) : kind.isLiteral ∨ kind = .placeholder := by
  rw [Literal.scan] at h
  split at h
  · obtain ⟨_, _, h⟩ := Option.map_eq_some_iff.mp h
    obtain ⟨rfl, _⟩ := Prod.mk.inj h
    exact .inl rfl
  · split at h
    · obtain ⟨_, _, h⟩ := Option.map_eq_some_iff.mp h
      obtain ⟨rfl, _⟩ := Prod.mk.inj h
      exact .inr rfl
    · split at h
      · rw [Literal.number] at h
        simp only [Option.ite_none_left_eq_some, Option.some.injEq, Prod.mk.injEq] at h
        left
        rw [← h.2.1]
        split <;> rfl
      · cases h

lemma kind_freeText (previous : Option Char) (c : Char) (rest : List Char) :
    (freeText previous c rest).kind.isFree ∧
      ((freeText previous c rest).kind.isPad = true ↔ Text.isPad c = true) := by
  rw [freeText]
  split
  case isTrue pad => simp [TokenKind.isFree, isPad_padKind, pad]
  case isFalse pad =>
    split
    · split
      case h_1 kind more found =>
        rcases kind_scan found with h | rfl
        · cases kind <;> simp_all [TokenKind.isFree, TokenKind.isLiteral, TokenKind.isPad]
        · simp [TokenKind.isFree, TokenKind.isPad, pad]
      case h_2 => simp [textRun, TokenKind.isFree, TokenKind.isPad, pad]
    · simp [textRun, TokenKind.isFree, TokenKind.isPad, pad]

lemma isFree_of_mem_cut {previous : Option Char} {n : Nat} {text : List Char} :
    ∀ k ∈ kinds (cut freeText previous n text), k.isFree := by
  intro k h
  obtain ⟨l, hl, rfl⟩ := List.mem_map.mp h
  exact kind_of_mem_cut (p := fun k => k.isFree) (fun s c rest => (kind_freeText s c rest).1) hl

lemma isKeyword_of_isFree {k : TokenKind} (free : k.isFree) : k.isKeyword = false := by
  cases k <;> first | rfl | cases free

lemma isFree_of_isKeyword {k : TokenKind} (keyword : k.isKeyword) : k.isFree = false := by
  cases k <;> first | rfl | cases keyword

lemma kind_docLine (c : Char) (rest : List Char) :
    (docLine () c rest).kind.isVerbatim ∧
      ((docLine () c rest).kind.isPad = true ↔ Text.isPad c = true) := by
  rw [docLine]
  split
  case isTrue pad => simp [TokenKind.isVerbatim, isPad_padKind, pad]
  case isFalse pad => simp [TokenKind.isVerbatim, TokenKind.isPad, pad]

lemma isVerbatim_of_mem_cut {n : Nat} {text : List Char} :
    ∀ k ∈ kinds (cut docLine () n text), k.isVerbatim := by
  intro k h
  obtain ⟨l, hl, rfl⟩ := List.mem_map.mp h
  exact kind_of_mem_cut (p := fun k => k.isVerbatim) (fun _ c rest => (kind_docLine c rest).1) hl

lemma isRowPart_of_mem_cut {n : Nat} {text : List Char} :
    ∀ k ∈ kinds (cut tableRow () n text), k.isRowPart := by
  intro k h
  obtain ⟨l, hl, rfl⟩ := List.mem_map.mp h
  refine kind_of_mem_cut (p := fun k => k.isRowPart) (fun _ c rest => ?_) hl
  rw [tableRow]
  split
  · simp [TokenKind.isRowPart, isPad_padKind]
  · split <;> rfl

lemma kinds_cut_tagLine (signed : Bool) (n : Nat) (text : List Char) :
    ∃ ks more, kinds (cut tagLine signed n text) = ks ++ more ∧ (∀ k ∈ ks, k.isTagPart) ∧
      (more = [] ∨ more = [.comment]) := by
  induction text generalizing signed n with
  | nil => exact ⟨[], [], rfl, by simp, .inl rfl⟩
  | cons c rest ih =>
    cases n with
    | succ n => exact ih signed n
    | zero =>
      have shape : (tagLine signed c rest).kind.isTagPart ∨
          ((tagLine signed c rest).kind = .comment ∧
            (tagLine signed c rest).more = rest.length) := by
        rw [tagLine]
        split
        · simp [TokenKind.isTagPart, isPad_padKind]
        · split
          · exact .inl rfl
          · split
            · exact .inl rfl
            · split
              · exact .inr ⟨rfl, rfl⟩
              · exact .inl rfl
      -- A comment takes the rest of the line, so nothing follows it.
      rcases shape with part | ⟨comment, whole⟩
      · obtain ⟨ks, more, hk, parts, last⟩ :=
          ih (tagLine signed c rest).next (tagLine signed c rest).more
        refine ⟨(tagLine signed c rest).kind :: ks, more, ?_, by simpa [part] using parts, last⟩
        simp only [kinds, cut, kind_ofCut, List.map_cons, List.cons_append] at hk ⊢
        rw [hk]
      · refine ⟨[], [.comment], ?_, by simp, .inr rfl⟩
        simp [kinds, cut, comment, cut_of_length_le, whole]

lemma plainShape_keywordLine {m : Keyword.Match} {text : List Char}
    (h : Keyword.at? text = some m) :
    PlainShape (kinds (keywordLine m text)) := by
  have keyword := Keyword.isKeyword_of_at? h
  rw [keywordLine]
  cases hk : m.kind with
  | header word =>
    obtain ⟨after, rest⟩ := Keyword.colon_of_at? h (by simp [hk, TokenKind.isHeader])
    simp only [rest, TokenKind.isHeader, if_true]
    exact .header word isFree_of_mem_cut
  | step word =>
    cases rest : text.drop m.length with
    | nil => exact .step word (by simp)
    | cons c after =>
      simp only [TokenKind.isHeader, Bool.false_eq_true, if_false]
      split
      · exact .remark word
      · exact .step word isFree_of_mem_cut
  | _ => simp [hk, TokenKind.isKeyword, TokenKind.isHeader, TokenKind.isStep] at keyword

lemma plainShape_plainLine {text : List Char} (unpadded : ∀ c ∈ text.head?, Text.isPad c = false) :
    PlainShape (kinds (plainLine text)) ∧
      ((kinds (plainLine text)).head? = some .fence ↔ (Fence.behind none text).isSome) := by
  unfold plainLine
  split
  case h_1 => exact ⟨.blank, by decide⟩
  case h_2 rest => exact ⟨.comment, by simp [kinds, Fence.behind, Fence.at?, Fence.marker,
    List.isPrefixOf]⟩
  case h_3 rest =>
    refine ⟨?_, by simp [kinds, cut, tableRow, Text.isPad, Fence.behind, Fence.at?, Fence.marker,
      List.isPrefixOf]⟩
    exact .row isRowPart_of_mem_cut (isApart_cut 0 rest)
  case h_4 rest =>
    refine ⟨?_, by simp [kinds, cut, tagLine, Text.isPad, Fence.behind, Fence.at?, Fence.marker,
      List.isPrefixOf]⟩
    obtain ⟨ks, more, hk, parts, last⟩ := kinds_cut_tagLine true 0 rest
    have line : kinds (cut tagLine false 0 ('@' :: rest)) =
        .atSign :: kinds (cut tagLine true 0 rest) := by
      simp [kinds, cut, tagLine, Text.isPad]
    rw [line, hk]
    exact .tags parts last
  case h_5 nonempty _ _ _ =>
    split
    case h_1 fence found => exact ⟨.fence isVerbatim_of_mem_cut, by simp [kinds, Lexeme.fence,
      Fence.behind, found]⟩
    case h_2 unfenced =>
      simp only [Fence.behind, unfenced, Option.isSome_none, Bool.false_eq_true, iff_false]
      split
      case h_1 m found =>
        refine ⟨plainShape_keywordLine found, ?_⟩
        have keyword := Keyword.isKeyword_of_at? found
        intro h
        have : m.kind = .fence := by simpa [kinds, keywordLine] using h
        simp [this, TokenKind.isKeyword, TokenKind.isHeader, TokenKind.isStep] at keyword
      case h_2 =>
        cases text with
        | nil => exact absurd rfl nonempty
        | cons c rest =>
          have first := kind_freeText none c rest
          have word : (freeText none c rest).kind.isPad = false := by
            rw [Bool.eq_false_iff, ne_eq, first.2]
            simpa using unpadded c
          refine ⟨.prose first.1 word isFree_of_mem_cut, ?_⟩
          intro h
          have : (freeText none c rest).kind = .fence := by simpa [kinds, cut] using h
          simp [this, TokenKind.isFree, TokenKind.isPad, TokenKind.isLiteral] at first

lemma fencedShape_fencedLine (within : Fence) {text : List Char}
    (unpadded : ∀ c ∈ text.head?, Text.isPad c = false) :
    FencedShape (kinds (fencedLine within text)) ∧
      ((kinds (fencedLine within text)).head? = some .fence ↔
        (Fence.behind (some within) text).isSome = false) := by
  rw [fencedLine]
  split
  case isTrue closes =>
    exact ⟨.closing isFree_of_mem_cut, by simp [kinds, Lexeme.fence, Fence.behind, closes]⟩
  case isFalse stays =>
    cases text with
    | nil => exact ⟨.blank, by simp [kinds, cut, Fence.behind, stays]⟩
    | cons c rest =>
      have first := kind_docLine c rest
      have word : (docLine () c rest).kind.isPad = false := by
        rw [Bool.eq_false_iff, ne_eq, first.2]
        simpa using unpadded c
      refine ⟨.content first.1 word isVerbatim_of_mem_cut, ?_⟩
      have unfenced : (docLine () c rest).kind ≠ .fence := by
        intro h
        simp [h, TokenKind.isVerbatim, TokenKind.isPad] at first
      simp [kinds, cut, Fence.behind, stays, unfenced]

def Shape : Bool → List TokenKind → Prop
  | false => PlainShape
  | true => FencedShape

lemma Shape.inline {inside : Bool} {ks : List TokenKind} (h : Shape inside ks) :
    ∀ k ∈ ks, k ≠ .eol ∧ k ≠ .eof := by
  have inlined {p : TokenKind → Bool} (hp : p .eol = false ∧ p .eof = false) {ks : List TokenKind}
      (h : ∀ k ∈ ks, p k) : ∀ k ∈ ks, k ≠ .eol ∧ k ≠ .eof := by
    intro k hk
    constructor <;> (rintro rfl; simp_all)
  cases inside with
  | true =>
    cases h with
    | blank => simp
    | content head _ rest => exact inlined (by decide) (List.forall_mem_cons.mpr ⟨head, rest⟩)
    | closing rest => exact List.forall_mem_cons.mpr ⟨by decide, inlined (by decide) rest⟩
  | false =>
    cases h with
    | blank => simp
    | comment => simp
    | header word rest => simpa using inlined (by decide) rest
    | step word rest => simpa using inlined (by decide) rest
    | remark word => simp
    | row rest => simpa using inlined (by decide) rest
    | tags rest last =>
      have parts := inlined (by decide) rest
      rcases last with rfl | rfl <;> simpa [or_imp, forall_and] using parts
    | fence rest => simpa using inlined (by decide) rest
    | prose head _ rest => exact inlined (by decide) (List.forall_mem_cons.mpr ⟨head, rest⟩)

lemma Shape.unpadded {inside : Bool} {ks : List TokenKind} (h : Shape inside ks) :
    ∀ k ∈ ks.head?, k.isPad = false := by
  cases inside with
  | true => cases h <;> simp_all [TokenKind.isPad]
  | false => cases h <;> simp_all [TokenKind.isPad]

lemma dropWhile_append_of_unpadded {pads body : List TokenKind} (hp : ∀ k ∈ pads, k.isPad)
    (hb : ∀ k ∈ body.head?, k.isPad = false) : (pads ++ body).dropWhile (·.isPad) = body := by
  rw [List.dropWhile_append_of_pos hp]
  cases body with
  | nil => rfl
  | cons k ks => simp [hb k rfl]

lemma unpadded_dropWhile (content : List Char) :
    ∀ c ∈ (content.dropWhile Text.isPad).head?, Text.isPad c = false := by
  intro c h
  have := List.head?_dropWhile_not Text.isPad content
  rw [Option.mem_def.mp h] at this
  simpa using this

lemma shape_ofContent (within : Option Fence) (content : List Char) :
    ∃ pads body, kinds (ofContent within content) = pads ++ body ∧ (∀ k ∈ pads, k.isPad) ∧
      Shape within.isSome body ∧
      (Fence.behind within (content.dropWhile Text.isPad)).isSome =
        (if body.head? = some .fence then !within.isSome else within.isSome) := by
  have pads : ∀ k ∈ kinds ((content.takeWhile Text.isPad).map pad), k.isPad := by
    intro k h
    simp only [kinds, List.mem_map] at h
    obtain ⟨_, ⟨c, _, rfl⟩, rfl⟩ := h
    exact isPad_padKind c
  cases within with
  | none =>
    obtain ⟨shape, opens⟩ := plainShape_plainLine (unpadded_dropWhile content)
    refine ⟨_, kinds (plainLine (content.dropWhile Text.isPad)), List.map_append, pads, shape, ?_⟩
    by_cases fenced : (kinds (plainLine (content.dropWhile Text.isPad))).head? = some .fence
    · rw [if_pos fenced]
      exact opens.mp fenced
    · rw [if_neg fenced]
      exact Bool.eq_false_iff.mpr (mt opens.mpr fenced)
  | some f =>
    obtain ⟨shape, closes⟩ := fencedShape_fencedLine f (unpadded_dropWhile content)
    refine ⟨_, kinds (fencedLine f (content.dropWhile Text.isPad)), List.map_append,
      pads, shape, ?_⟩
    by_cases fenced : (kinds (fencedLine f (content.dropWhile Text.isPad))).head? = some .fence
    · rw [if_pos fenced]
      exact closes.mp fenced
    · rw [if_neg fenced]
      exact Bool.of_not_eq_false (mt closes.mpr fenced)

lemma inline_of_mem_ofContent {within : Option Fence} {content : List Char} :
    ∀ k ∈ kinds (ofContent within content), k ≠ .eol ∧ k ≠ .eof := by
  obtain ⟨pads, body, whole, padded, shape, _⟩ := shape_ofContent within content
  intro k h
  rw [whole] at h
  rcases List.mem_append.mp h with h | h
  · have := padded k h
    constructor <;> (rintro rfl; simp [TokenKind.isPad] at this)
  · exact shape.inline k h

lemma kind_ne_eof_of_mem_ofLines {within : Option Fence} {ls : List Text.SourceLine} :
    ∀ k ∈ kinds (ofLines within ls), k ≠ .eof := by
  induction ls generalizing within with
  | nil => simp [ofLines, kinds]
  | cons l ls ih =>
    intro k h
    simp only [kinds, ofLines, List.map_append] at h
    rcases List.mem_append.mp h with h | h
    · rcases List.mem_append.mp h with h | h
      · exact (inline_of_mem_ofContent k h).2
      · cases ending : l.ending <;> simp_all [ofEnding]
    · exact ih k h

theorem kind_ne_eof_of_mem_ofText {text : List Char} {k : TokenKind} (h : k ∈ kinds (ofText text)) :
    k ≠ .eof :=
  kind_ne_eof_of_mem_ofLines k h

end Lexeme

end FeatureFile
