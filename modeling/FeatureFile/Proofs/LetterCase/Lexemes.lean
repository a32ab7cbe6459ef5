import FeatureFile.Proofs.LetterCase.Scan

namespace FeatureFile

open Text

variable {c d : Char} {rest rest' text text' : List Char}

structure Lexeme.SameButCase (l l' : Lexeme) : Prop where
  kind : l.kind = l'.kind
  text : SameFold l.text l'.text
  openQuote : l.openQuote.isSome = l'.openQuote.isSome

structure Cut.SameExtent {σ : Type} (S : σ → σ → Prop) (v v' : Cut σ) : Prop where
  kind : v.kind = v'.kind
  more : v.more = v'.more
  next : S v.next v'.next
  openQuote : v.openQuote.isSome = v'.openQuote.isSome

def Cut.IsBlind {σ : Type} (S : σ → σ → Prop) (rule : σ → Char → List Char → Cut σ) : Prop :=
  ∀ ⦃s s' c d rest rest'⦄, S s s' → foldCase c = foldCase d → SameFold rest rest' →
    (rule s c rest).SameExtent S (rule s' d rest')

namespace Lexeme

lemma sameButCase_cut {σ : Type} {S : σ → σ → Prop} {rule : σ → Char → List Char → Cut σ}
    (blind : Cut.IsBlind S rule) {s s' : σ} (state : S s s') (n : Nat) (h : SameFold text text') :
    List.Forall₂ SameButCase (cut rule s n text) (cut rule s' n text') := by
  induction h generalizing s s' n with
  | nil => exact .nil
  | cons first rest ih =>
    cases n with
    | zero =>
      have verdict := blind state first rest
      rw [cut, cut, ofCut, ofCut, verdict.more]
      exact .cons ⟨verdict.kind, .cons first (SameFold.take _ rest), verdict.openQuote⟩
        (ih verdict.next _)
    | succ n => exact ih state n

lemma padKind_eq (same : foldCase c = foldCase d) : padKind c = padKind d := by
  simp only [padKind, eq_iff_of_isCaseless (x := '\t') rfl same]

lemma runLength_eq (front : foldCase c = foldCase d) (h : SameFold rest rest') :
    runLength c rest = runLength d rest' := by
  induction h generalizing c d with
  | nil => rfl
  | cons first _ ih =>
    rw [runLength, runLength, isPad_eq first, Literal.mayBegin_eq front first, ih first]

lemma foldCase_lastOf (front : foldCase c = foldCase d) (h : SameFold rest rest') (more : Nat) :
    foldCase (lastOf c rest more) = foldCase (lastOf d rest' more) := by
  have last := List.Forall₂.getLast? (h.take more)
  rw [lastOf, lastOf]
  generalize (rest.take more).getLast? = a at last
  generalize (rest'.take more).getLast? = b at last
  cases last with
  | none => exact front
  | some same => exact same

def SameBefore (previous previous' : Option Char) : Prop :=
  Option.Rel (fun c d => foldCase c = foldCase d) previous previous'

lemma isWordStart_eq {previous previous' : Option Char} (state : SameBefore previous previous') :
    isWordStart previous = isWordStart previous' := by
  cases state with
  | none => rfl
  | some same => rw [isWordStart, isWordStart, isAlphanumeric_eq same]

lemma sameExtent_textRun (first : foldCase c = foldCase d) (h : SameFold rest rest')
    {q q' : Option Nat} (quote : q.isSome = q'.isSome) :
    (textRun c rest q).SameExtent SameBefore (textRun d rest' q') := by
  have length := runLength_eq first h
  refine ⟨rfl, length, .some ?_, quote⟩
  rw [length]
  exact foldCase_lastOf first h _

lemma isBlind_freeText : Cut.IsBlind SameBefore freeText := by
  intro previous previous' c d rest rest' state first h
  rw [freeText, freeText, isPad_eq first, isWordStart_eq state, Literal.scan_eq first h]
  split
  · exact ⟨padKind_eq first, rfl, .some first, rfl⟩
  · split
    · cases Literal.scan d rest' with
      | none =>
        refine sameExtent_textRun first h ?_
        rw [Literal.isQuote_eq first]
        split <;> rfl
      | some found => exact ⟨rfl, rfl, .some (foldCase_lastOf first h _), rfl⟩
    · exact sameExtent_textRun first h rfl

lemma isTagChar_eq (same : foldCase c = foldCase d) : isTagChar c = isTagChar d := by
  simp only [isTagChar, bne, beq_eq_decide, isBlank_eq same, eq_iff_of_isCaseless (x := '@') rfl same]

lemma isBlind_tagLine : Cut.IsBlind Eq tagLine := by
  rintro signed _ c d rest rest' rfl first h
  have name := (h.takeWhile fun _ _ => isTagChar_eq).length_eq
  simp only [tagLine, isPad_eq first, isTagChar_eq first, padKind_eq first, name, h.length_eq,
    runLength_eq first h, eq_iff_of_isCaseless (x := '@') rfl first,
    eq_iff_of_isCaseless (x := '#') rfl first]
  exact ⟨rfl, rfl, rfl, rfl⟩

lemma sameFold_untilBar (escaped : Bool) (h : SameFold text text') :
    SameFold (untilBar escaped text) (untilBar escaped text') := by
  induction h generalizing escaped with
  | nil => exact .nil
  | @cons c d text text' first _ ih =>
    simp only [untilBar, eq_iff_of_isCaseless (x := '|') rfl first,
      eq_iff_of_isCaseless (x := '\\') rfl first]
    split
    · exact .nil
    · exact .cons first (ih _)

lemma isBlind_tableRow : Cut.IsBlind Eq tableRow := by
  rintro _ _ c d rest rest' rfl first h
  have cell (escaped : Bool) : (dropEnd isPad (untilBar escaped rest)).length =
      (dropEnd isPad (untilBar escaped rest')).length :=
    (forall₂_dropEnd (fun _ _ same => isPad_eq same) (sameFold_untilBar escaped h)).length_eq
  simp only [tableRow, isPad_eq first, padKind_eq first, cell,
    eq_iff_of_isCaseless (x := '|') rfl first, eq_iff_of_isCaseless (x := '\\') rfl first]
  exact ⟨rfl, rfl, rfl, rfl⟩

lemma isBlind_docLine : Cut.IsBlind Eq docLine := by
  rintro _ _ c d rest rest' rfl first h
  have word : (rest.takeWhile (!isPad ·)).length = (rest'.takeWhile (!isPad ·)).length :=
    (h.takeWhile fun _ _ same => congrArg Bool.not (isPad_eq same)).length_eq
  simp only [docLine, isPad_eq first, padKind_eq first, word]
  exact ⟨rfl, rfl, rfl, rfl⟩

variable {previous previous' : Option Char}

lemma sameButCase_freeText (state : SameBefore previous previous') (h : SameFold text text') :
    List.Forall₂ SameButCase (cut freeText previous 0 text) (cut freeText previous' 0 text') :=
  sameButCase_cut isBlind_freeText state 0 h

lemma sameButCase_keywordLine (m : Keyword.Match) (h : SameFold text text') :
    List.Forall₂ SameButCase (keywordLine m text) (keywordLine m text') := by
  have rest := h.drop m.length
  rw [keywordLine, keywordLine]
  refine .cons ⟨rfl, h.take _, rfl⟩ ?_
  generalize text.drop m.length = after at rest
  generalize text'.drop m.length = after' at rest
  cases rest with
  | nil => exact .nil
  | @cons c d others others' first below =>
    have rest : SameFold (c :: others) (d :: others') := .cons first below
    dsimp only
    split
    · exact .cons ⟨rfl, .cons first .nil, rfl⟩ (sameButCase_freeText (.some first) below)
    · simp only [eq_iff_of_isCaseless (x := '#') rfl first]
      split
      · exact .cons ⟨rfl, rest, rfl⟩ .nil
      · exact sameButCase_freeText .none rest

lemma sameButCase_fence (h : SameFold text text') : (fence text).SameButCase (fence text') :=
  ⟨rfl, h.take 3, rfl⟩

lemma plainLine_of_signless (h : c ∉ ['#', '|', '@']) (rest : List Char) :
    plainLine (c :: rest) =
      match Fence.at? (c :: rest) with
      | some _ => fence (c :: rest) :: cut docLine () 0 ((c :: rest).drop 3)
      | none =>
        match Keyword.at? (c :: rest) with
        | some m => keywordLine m (c :: rest)
        | none => cut freeText none 0 (c :: rest) := by
  rw [plainLine.eq_def]
  split
  case h_5 => rfl
  all_goals simp_all

lemma sameButCase_plainLine (h : SameFold text text') :
    List.Forall₂ SameButCase (plainLine text) (plainLine text') := by
  cases h with
  | nil => exact .nil
  | @cons c d rest rest' first others =>
    have whole : SameFold (c :: rest) (d :: rest') := .cons first others
    have caseless : ∀ x ∈ ['#', '|', '@'], isCaseless x := by decide
    by_cases sign : c ∈ ['#', '|', '@']
    · obtain rfl := eq_of_isCaseless (caseless c sign) first
      simp only [List.mem_cons, List.not_mem_nil, or_false] at sign
      rcases sign with rfl | rfl | rfl
      · exact .cons ⟨rfl, whole, rfl⟩ .nil
      · exact sameButCase_cut isBlind_tableRow rfl 0 whole
      · exact sameButCase_cut isBlind_tagLine rfl 0 whole
    · have signless : d ∉ ['#', '|', '@'] := fun there => sign <| by
        rwa [eq_of_isCaseless (caseless d there) first.symm] at there
      rw [plainLine_of_signless sign, plainLine_of_signless signless, Fence.at?_eq whole,
        Keyword.at?_eq whole]
      cases Fence.at? (d :: rest') with
      | some _ =>
        exact .cons (sameButCase_fence whole) (sameButCase_cut isBlind_docLine rfl 0 (whole.drop 3))
      | none =>
        cases Keyword.at? (d :: rest') with
        | some m => exact sameButCase_keywordLine m whole
        | none => exact sameButCase_freeText .none whole

lemma sameButCase_fencedLine (within : Fence) (h : SameFold text text') :
    List.Forall₂ SameButCase (fencedLine within text) (fencedLine within text') := by
  rw [fencedLine, fencedLine, Fence.isPrefixOf_marker_eq within h]
  split
  · have last : SameBefore within.marker.getLast? within.marker.getLast? := by
      cases within <;> exact .some rfl
    exact .cons (sameButCase_fence h) (sameButCase_freeText last (h.drop 3))
  · exact sameButCase_cut isBlind_docLine rfl 0 h

lemma sameButCase_ofContent (within : Option Fence) (h : SameFold text text') :
    List.Forall₂ SameButCase (ofContent within text) (ofContent within text') := by
  have pads := h.takeWhile fun _ _ => isPad_eq
  have body := h.dropWhile fun _ _ => isPad_eq
  refine List.rel_append (List.rel_map (fun c d same => ?_) pads) ?_
  · exact ⟨padKind_eq same, .cons same .nil, rfl⟩
  · cases within with
    | none => exact sameButCase_plainLine body
    | some fence => exact sameButCase_fencedLine fence body

end Lexeme

structure Text.SourceLine.SameButCase (line line' : SourceLine) : Prop where
  content : SameFold line.content line'.content
  ending : line.ending = line'.ending

namespace Text

lemma sameButCase_prependChar {ls ls' : List SourceLine} (same : foldCase c = foldCase d)
    (h : List.Forall₂ SourceLine.SameButCase ls ls') :
    List.Forall₂ SourceLine.SameButCase (prependChar c ls) (prependChar d ls') := by
  cases h with
  | nil => exact .cons ⟨.cons same .nil, rfl⟩ .nil
  | cons first rest => exact .cons ⟨.cons same first.content, first.ending⟩ rest

lemma sameButCase_lines (h : SameFold text text') :
    List.Forall₂ SourceLine.SameButCase (lines text) (lines text') := by
  fun_induction lines text generalizing text' with
  | case1 =>
    cases h
    exact .nil
  | case2 rest ih =>
    obtain _ | ⟨first, _ | ⟨second, below⟩⟩ := h
    obtain rfl := eq_of_isCaseless rfl first
    obtain rfl := eq_of_isCaseless rfl second
    exact .cons ⟨.nil, rfl⟩ (ih below)
  | case3 c rest apart ends ih =>
    obtain _ | @⟨_, _, _, rest', first, below⟩ := h
    obtain rfl := eq_of_isCaseless (isCaseless_of_isBreak ends) first
    have apart' : ∀ more, c = '\r' → rest' = '\n' :: more → False := by
      rintro more carriage rfl
      obtain _ | ⟨next, _⟩ := below
      obtain rfl := eq_of_isCaseless rfl next.symm
      exact apart _ carriage rfl
    rw [lines.eq_3 c rest' apart', if_pos ends]
    exact .cons ⟨.nil, rfl⟩ (ih below)
  | case4 c rest apart inline ih =>
    obtain _ | ⟨first, below⟩ := h
    rw [lines_inline ((isBreak_eq first).symm.trans (Bool.eq_false_iff.mpr inline))]
    exact sameButCase_prependChar first (ih below)

lemma sameFold_stripMark (h : SameFold text text') : SameFold (stripMark text) (stripMark text') := by
  cases h with
  | nil => exact .nil
  | cons first rest =>
    simp only [stripMark, eq_iff_of_isCaseless (x := byteOrderMark) rfl first]
    split
    · exact rest
    · exact .cons first rest

end Text

namespace Lexeme

lemma sameButCase_ofLines (within : Option Fence) {ls ls' : List SourceLine}
    (h : List.Forall₂ SourceLine.SameButCase ls ls') :
    List.Forall₂ SameButCase (ofLines within ls) (ofLines within ls') := by
  induction h generalizing within with
  | nil => exact .nil
  | @cons line line' ls ls' first _ ih =>
    have body := first.content.dropWhile fun _ _ => isPad_eq
    rw [ofLines, ofLines, ← first.ending, Fence.behind_eq within body]
    refine List.rel_append (List.rel_append (sameButCase_ofContent within first.content) ?_) (ih _)
    rw [List.forall₂_same]
    exact fun l _ => ⟨rfl, List.forall₂_same.mpr fun _ _ => rfl, rfl⟩

lemma sameButCase_ofText (h : SameFold text text') :
    List.Forall₂ SameButCase (ofText text) (ofText text') :=
  sameButCase_ofLines none (sameButCase_lines h)

end Lexeme

end FeatureFile
