import FeatureFile.Proofs.Lexeme.Cut
import FeatureFile.Proofs.Token.Reports

/-!
Free text read character by character. Free text is cut into runs, which go on to where a literal may
begin, and only there a literal is looked for. That finds the same literals as looking for one at each
character.
-/

namespace FeatureFile

open Text (isPad isAlphanumeric byteLength)

inductive Verdict where
  | literal (kind : TokenKind) (more : Nat)
  | openQuote
  | nothing

inductive Found where
  | literal (kind : TokenKind) (start stop : Nat)
  | openQuote (start stop : Nat)
  deriving DecidableEq

namespace Found

def literal? : Found → Option (TokenKind × Nat × Nat)
  | literal kind start stop => some (kind, start, stop)
  | openQuote _ _ => none

def openQuote? : Found → Option (Nat × Nat)
  | literal _ _ _ => none
  | openQuote start stop => some (start, stop)

end Found

def Verdict.of (previous : Option Char) (c : Char) (rest : List Char) : Verdict :=
  if previous.any isAlphanumeric then nothing
  else if Literal.isQuote c then
    match Literal.string c rest with
    | some more => literal .string more
    | none => openQuote
  else if c = '<' then
    match Literal.placeholder rest with
    | some more => literal .placeholder more
    | none => nothing
  else if c.isDigit ∧ previous ≠ some '.' ∧ previous ≠ some '_' then
    match Literal.number rest with
    | some (kind, more) => literal kind more
    | none => nothing
  else nothing

/-- Looks for literals at each character from an offset on. The number counts characters that a literal
has already taken. -/
def Found.inText : Option Char → Nat → Nat → List Char → List Found
  | _, _, _, [] => []
  | _, offset, n + 1, c :: rest => inText (some c) (offset + c.utf8Size) n rest
  | previous, offset, 0, c :: rest =>
    match Verdict.of previous c rest with
    | .literal kind more =>
      literal kind offset (offset + byteLength (c :: rest.take more)) ::
        inText (some c) (offset + c.utf8Size) more rest
    | .openQuote =>
      openQuote offset (offset + byteLength (c :: rest)) ::
        inText (some c) (offset + c.utf8Size) 0 rest
    | .nothing => inText (some c) (offset + c.utf8Size) 0 rest

def Literal.IsApart (previous : Option Char) (text : List Char) : Prop :=
  previous = some '.' ∨ previous = some '_' → ∀ c ∈ text.head?, c.isDigit = false

namespace Verdict

variable {previous : Option Char} {c : Char} {rest : List Char}

lemma of_plain (noQuote : Literal.isQuote c = false) (noAngle : c ≠ '<') (noDigit : c.isDigit = false) :
    of previous c rest = nothing := by
  simp [of, noQuote, noAngle, noDigit]

lemma of_pad (pad : isPad c) : of previous c rest = nothing := by
  rcases Text.isPad_iff.mp pad with rfl | rfl <;> exact of_plain rfl (by decide) rfl

lemma of_inner {q : Char} (inner : Literal.mayBegin q c = false) : of (some q) c rest = nothing := by
  cases word : isAlphanumeric q with
  | true => simp [of, word]
  | false =>
    simp only [Literal.mayBegin, word, Bool.not_false, Bool.true_and, Bool.or_eq_false_iff,
      decide_eq_false_iff_not, Bool.and_eq_false_iff, bne_eq_false_iff_eq] at inner
    obtain ⟨⟨noQuote, noAngle⟩, digit⟩ := inner
    have stays : ¬ (c.isDigit ∧ some q ≠ some '.' ∧ some q ≠ some '_') := by
      simp only [ne_eq, Option.some.injEq]
      rintro ⟨here, noDot, noLine⟩
      rcases digit with (none | dot) | line
      · simp [none] at here
      · exact noDot dot
      · exact noLine line
    rw [of, if_neg (by simp [word]), if_neg (by simp [noQuote]), if_neg noAngle, if_neg stays]

lemma literal_cases {kind : TokenKind} {more : Nat} (h : of previous c rest = literal kind more) :
    (Literal.isQuote c ∧ kind = .string ∧ Literal.string c rest = some more) ∨
      (c = '<' ∧ kind = .placeholder ∧ Literal.placeholder rest = some more) ∨
      (c.isDigit ∧ Literal.number rest = some (kind, more)) := by
  rw [of] at h
  split at h
  · cases h
  · split at h
    case isTrue quote =>
      split at h
      case h_2 => cases h
      case h_1 found =>
        obtain ⟨rfl, rfl⟩ := literal.inj h
        exact .inl ⟨quote, rfl, found⟩
    case isFalse =>
      split at h
      case isTrue angle =>
        split at h
        case h_2 => cases h
        case h_1 found =>
          obtain ⟨rfl, rfl⟩ := literal.inj h
          exact .inr (.inl ⟨angle, rfl, found⟩)
      case isFalse =>
        split at h
        case isFalse => cases h
        case isTrue digit =>
          split at h
          case h_2 => cases h
          case h_1 found =>
            obtain ⟨rfl, rfl⟩ := literal.inj h
            exact .inr (.inr ⟨digit.1, found⟩)

end Verdict

namespace Lexeme

variable {previous : Option Char} {c : Char} {rest : List Char}

lemma lastOf_cons (q c : Char) (rest : List Char) (n : Nat) :
    lastOf q (c :: rest) (n + 1) = lastOf c rest n := by
  simp [lastOf, List.getLast?_cons]

lemma lastOf_add (q : Char) (text : List Char) (m n : Nat) :
    lastOf q text (m + n) = lastOf (lastOf q text m) (text.drop m) n := by
  induction text generalizing q m with
  | nil => simp [lastOf]
  | cons c rest ih =>
    cases m with
    | zero => rw [Nat.zero_add]; rfl
    | succ m => rw [Nat.add_right_comm, lastOf_cons, lastOf_cons, List.drop_succ_cons, ih]

lemma freeText_of_word (apart : Literal.IsApart previous (c :: rest)) (word : isPad c = false) :
    freeText previous c rest =
      match Verdict.of previous c rest with
      | .literal kind more => ⟨kind, more, some (lastOf c rest more), none⟩
      | .openQuote => textRun c rest (some (byteLength (c :: rest)))
      | .nothing => textRun c rest none := by
  have start : isWordStart previous = !previous.any isAlphanumeric := by cases previous <;> rfl
  rw [freeText, if_neg (by simp [word]), Verdict.of, start]
  cases previous.any isAlphanumeric with
  | true => rfl
  | false =>
    rw [Bool.not_false, if_pos rfl, if_neg Bool.false_ne_true, Literal.scan]
    by_cases quote : Literal.isQuote c
    · rw [if_pos quote, if_pos quote, if_pos quote]
      cases Literal.string c rest <;> rfl
    · rw [if_neg quote, if_neg quote, if_neg quote]
      by_cases angle : c = '<'
      · rw [if_pos angle, if_pos angle]
        cases Literal.placeholder rest <;> rfl
      · rw [if_neg angle, if_neg angle]
        by_cases digit : c.isDigit
        · have noDot : previous ≠ some '.' := fun dot => by simpa [digit] using apart (.inl dot)
          have noLine : previous ≠ some '_' := fun line => by simpa [digit] using apart (.inr line)
          rw [if_pos digit, if_pos ⟨digit, noDot, noLine⟩]
          cases Literal.number rest <;> rfl
        · rw [if_neg digit, if_neg fun here => digit here.1]

end Lexeme

namespace Found

lemma inText_skip (q : Char) (offset n : Nat) (rest : List Char) :
    inText (some q) offset n rest =
      inText (some (Lexeme.lastOf q rest n)) (offset + byteLength (rest.take n)) 0 (rest.drop n) := by
  induction rest generalizing q offset n with
  | nil => simp [inText]
  | cons c rest ih =>
    cases n with
    | zero => rfl
    | succ n =>
      rw [inText, ih, Lexeme.lastOf_cons, List.take_succ_cons, List.drop_succ_cons, byteLength,
        Nat.add_assoc]

lemma inText_run (q : Char) (offset : Nat) (rest : List Char) :
    inText (some q) offset 0 rest =
      inText (some q) offset (Lexeme.runLength q rest) rest := by
  induction rest generalizing q offset with
  | nil => rfl
  | cons c rest ih =>
    rw [Lexeme.runLength]
    split
    · rfl
    case isFalse inner =>
      obtain ⟨word, inner⟩ := Bool.or_eq_false_iff.mp (Bool.eq_false_iff.mpr inner)
      rw [inText, inText, Verdict.of_inner inner, ih]

end Found

namespace Literal

variable {previous : Option Char} {c : Char} {rest : List Char}

lemma isApart_of_plain {q : Char} (plain : q ≠ '.' ∧ q ≠ '_') (text : List Char) :
    IsApart (some q) text := by
  rintro (dot | line)
  · exact absurd (Option.some.inj dot) plain.1
  · exact absurd (Option.some.inj line) plain.2

lemma isApart_pad (pad : isPad c) (text : List Char) : IsApart (some c) text := by
  rcases Text.isPad_iff.mp pad with rfl | rfl <;> exact isApart_of_plain (by decide) text

lemma isQuote_of_isDigit {c : Char} (digit : c.isDigit) : isQuote c = false := by
  rw [Bool.eq_false_iff]
  intro quote
  rcases Bool.or_eq_true_iff.mp quote with same | same <;>
    · obtain rfl := of_decide_eq_true same
      cases digit

lemma apart_of_mayBegin {q c : Char} (begins : mayBegin q c) (digit : c.isDigit) :
    q ≠ '.' ∧ q ≠ '_' := by
  have noAngle : c ≠ '<' := by
    rintro rfl
    cases digit
  simp only [mayBegin, isQuote_of_isDigit digit, noAngle, digit, Bool.and_eq_true] at begins
  simpa using begins.2

lemma isApart_run (q : Char) (rest : List Char) :
    IsApart (some (Lexeme.lastOf q rest (Lexeme.runLength q rest)))
      (rest.drop (Lexeme.runLength q rest)) := by
  induction rest generalizing q with
  | nil => simp [IsApart]
  | cons c rest ih =>
    rw [Lexeme.runLength]
    split
    case isTrue stops =>
      intro sign d here
      obtain rfl : c = d := Option.some.inj here
      rw [Bool.eq_false_iff]
      intro digit
      rcases Bool.or_eq_true_iff.mp stops with pad | begins
      · rcases Text.isPad_iff.mp pad with rfl | rfl <;> cases digit
      · exact absurd digit (by simpa using isApart_of_plain (apart_of_mayBegin begins digit) [c] sign)
    case isFalse inner =>
      rw [Lexeme.lastOf_cons, List.drop_succ_cons]
      exact ih c

lemma lastOf_string {more : Nat} (found : string c rest = some more) (q : Char) :
    Lexeme.lastOf q rest more = c := by
  induction rest generalizing more q with
  | nil => cases found
  | cons d rest ih =>
    rw [string] at found
    split at found
    · cases found
    · split at found
      case isTrue same =>
        obtain rfl := Option.some.inj found
        exact (Lexeme.lastOf_cons q d rest 0).trans same
      case isFalse =>
        obtain ⟨n, below, rfl⟩ := Option.map_eq_some_iff.mp found
        rw [Lexeme.lastOf_cons, ih below]

lemma lastOf_closeAngle {more : Nat} (found : closeAngle rest = some more) (q : Char) :
    Lexeme.lastOf q rest more = '>' := by
  induction rest generalizing more q with
  | nil => cases found
  | cons d rest ih =>
    rw [closeAngle] at found
    split at found
    case isTrue same =>
      obtain rfl := Option.some.inj found
      exact (Lexeme.lastOf_cons q d rest 0).trans same
    case isFalse =>
      split at found
      · cases found
      · obtain ⟨n, below, rfl⟩ := Option.map_eq_some_iff.mp found
        rw [Lexeme.lastOf_cons, ih below]

lemma lastOf_placeholder {more : Nat} (found : placeholder rest = some more) (q : Char) :
    Lexeme.lastOf q rest more = '>' := by
  cases rest with
  | nil => cases found
  | cons d rest =>
    rw [placeholder] at found
    split at found
    · cases found
    · obtain ⟨n, below, rfl⟩ := Option.map_eq_some_iff.mp found
      rw [Lexeme.lastOf_cons, lastOf_closeAngle below]

lemma isDigit_lastOf {q : Char} {n : Nat} (first : q.isDigit) (digits : ∀ d ∈ rest.take n, d.isDigit) :
    (Lexeme.lastOf q rest n).isDigit := by
  rw [Lexeme.lastOf]
  cases last : (rest.take n).getLast? with
  | none => exact first
  | some d => exact digits d (List.mem_of_getLast? last)

lemma isDigit_of_mem_take_digitCount (text : List Char) :
    ∀ d ∈ text.take (digitCount text), d.isDigit := by
  intro d hd
  have front : text.take (digitCount text) = text.takeWhile Char.isDigit :=
    (List.prefix_iff_eq_take.mp (List.takeWhile_prefix _)).symm
  rw [front] at hd
  exact List.mem_takeWhile_imp hd

lemma isDigit_lastOf_fraction {q : Char} (first : q.isDigit) (text : List Char) :
    (Lexeme.lastOf q text (fraction text)).isDigit := by
  unfold fraction
  split
  case h_2 => exact first
  case h_1 rest =>
    split
    case isTrue => exact first
    case isFalse some =>
      rw [Lexeme.lastOf_cons, Lexeme.lastOf]
      cases last : (rest.take (digitCount rest)).getLast? with
      | some d => exact isDigit_of_mem_take_digitCount rest d (List.mem_of_getLast? last)
      | none =>
        have none := List.getLast?_eq_none_iff.mp last
        rcases List.take_eq_nil_iff.mp none with zero | rfl
        · exact absurd zero some
        · exact absurd rfl some

lemma isDigit_lastOf_number {kind : TokenKind} {more : Nat} (first : c.isDigit)
    (found : number rest = some (kind, more)) : (Lexeme.lastOf c rest more).isDigit := by
  simp only [number] at found
  split at found
  · cases found
  · obtain ⟨-, rfl⟩ := Prod.mk.inj (Option.some.inj found)
    rw [Lexeme.lastOf_add]
    exact isDigit_lastOf_fraction
      (isDigit_lastOf first (isDigit_of_mem_take_digitCount rest)) _

lemma isApart_digit {q : Char} (digit : q.isDigit) (text : List Char) : IsApart (some q) text := by
  refine isApart_of_plain ⟨?_, ?_⟩ text <;>
    · rintro rfl
      cases digit

lemma isApart_literal {kind : TokenKind} {more : Nat}
    (found : Verdict.of previous c rest = .literal kind more) (text : List Char) :
    IsApart (some (Lexeme.lastOf c rest more)) text := by
  rcases Verdict.literal_cases found with ⟨quote, -, here⟩ | ⟨-, -, here⟩ | ⟨digit, here⟩
  · rw [lastOf_string here]
    rcases Bool.or_eq_true_iff.mp quote with same | same <;>
      · rw [of_decide_eq_true same]
        exact isApart_of_plain (by decide) text
  · rw [lastOf_placeholder here]
    exact isApart_of_plain (by decide) text
  · exact isApart_digit (isDigit_lastOf_number digit here) text

end Literal

def TokenKind.isEmbedded (k : TokenKind) : Bool :=
  k.isLiteral || k = .placeholder

lemma Verdict.isEmbedded_literal {previous : Option Char} {c : Char} {rest : List Char}
    {kind : TokenKind} {more : Nat} (h : Verdict.of previous c rest = .literal kind more) :
    kind.isEmbedded := by
  rcases literal_cases h with ⟨-, rfl, -⟩ | ⟨-, rfl, -⟩ | ⟨-, here⟩
  · rfl
  · rfl
  · simp only [Literal.number] at here
    split at here
    · cases here
    · obtain ⟨rfl, -⟩ := Prod.mk.inj (Option.some.inj here)
      split <;> rfl

namespace Found

def ofLexeme? (offset : Nat) (l : Lexeme) : Option Found :=
  if l.kind.isEmbedded then some (literal l.kind offset (offset + byteLength l.text))
  else l.openQuote.map fun width => openQuote offset (offset + width)

def ofLexemes : Nat → List Lexeme → List Found
  | _, [] => []
  | offset, l :: rest => (ofLexeme? offset l).toList ++ ofLexemes (offset + byteLength l.text) rest

lemma ofLexemes_cut_zero (previous : Option Char) (offset : Nat) (c : Char) (rest : List Char) :
    ofLexemes offset (Lexeme.cut Lexeme.freeText previous 0 (c :: rest)) =
      let verdict := Lexeme.freeText previous c rest
      let taken := c :: rest.take verdict.more
      (ofLexeme? offset ⟨verdict.kind, taken, verdict.openQuote⟩).toList ++
        ofLexemes (offset + byteLength taken)
          (Lexeme.cut Lexeme.freeText verdict.next 0 (rest.drop verdict.more)) := by
  rw [Lexeme.cut, ofLexemes, Lexeme.cut_eq_cut_drop]
  rfl

lemma inText_some (offset n : Nat) (c : Char) (rest : List Char) :
    inText (some c) (offset + c.utf8Size) n rest =
      inText (some (Lexeme.lastOf c rest n)) (offset + byteLength (c :: rest.take n)) 0
        (rest.drop n) := by
  rw [inText_skip, byteLength, Nat.add_assoc]

lemma ofLexemes_cut (previous : Option Char) (offset : Nat) (text : List Char)
    (apart : Literal.IsApart previous text) :
    ofLexemes offset (Lexeme.cut Lexeme.freeText previous 0 text) = inText previous offset 0 text := by
  induction length : text.length using Nat.strong_induction_on generalizing previous offset text with
  | _ n ih =>
    cases text with
    | nil => rfl
    | cons c rest =>
      have below (q : Option Char) (o k : Nat) (apart : Literal.IsApart q (rest.drop k)) :
          ofLexemes o (Lexeme.cut Lexeme.freeText q 0 (rest.drop k)) = inText q o 0 (rest.drop k) := by
        refine ih (rest.drop k).length ?_ q o (rest.drop k) apart rfl
        rw [← length, List.length_drop, List.length_cons]
        omega
      have run := below _ (offset + byteLength (c :: rest.take (Lexeme.runLength c rest))) _
        (Literal.isApart_run c rest)
      rw [← inText_some, ← inText_run] at run
      rw [ofLexemes_cut_zero]
      cases pad : isPad c with
      | true =>
        have kind : (Lexeme.padKind c).isEmbedded = false := by
          rw [Lexeme.padKind]
          split <;> rfl
        have rest' := below (some c) (offset + c.utf8Size) 0 (Literal.isApart_pad pad _)
        simpa [Lexeme.freeText, pad, ofLexeme?, kind, inText, Verdict.of_pad pad, byteLength] using rest'
      | false =>
        rw [Lexeme.freeText_of_word apart pad, inText]
        cases verdict : Verdict.of previous c rest with
        | literal kind more =>
          have behind := below _ (offset + byteLength (c :: rest.take more)) more
            (Literal.isApart_literal verdict _)
          dsimp only
          rw [ofLexeme?, if_pos (Verdict.isEmbedded_literal verdict), behind, inText_some]
          rfl
        | openQuote =>
          dsimp only [Lexeme.textRun]
          rw [run]
          rfl
        | nothing =>
          dsimp only [Lexeme.textRun]
          rw [run]
          rfl

end Found

end FeatureFile
