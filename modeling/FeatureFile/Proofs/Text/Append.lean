import FeatureFile.Proofs.Text.Lines
import FeatureFile.Text.Utf8

namespace FeatureFile.Text

def IsEnded (text : List Char) : Prop :=
  text = [] ∨ text.getLast? = some '\n'

instance (text : List Char) : Decidable (IsEnded text) :=
  inferInstanceAs (Decidable (_ ∨ _))

def breakCount (text : List Char) : Nat :=
  (lines text).countP (·.ending ≠ [])

def EndsLine (text : List Char) : Prop :=
  text = [] ∨ ∃ c ∈ text.getLast?, isBreak c

instance (text : List Char) : Decidable (EndsLine text) :=
  decidable_of_iff (text = [] ∨ text.getLast?.any isBreak)
    (or_congr_right (Option.any_eq_true isBreak _))

structure IsParted (text more : List Char) : Prop where
  ended : EndsLine text
  whole : text.getLast? = some '\r' → more.head? ≠ some '\n'

instance (text more : List Char) : Decidable (IsParted text more) :=
  decidable_of_iff (EndsLine text ∧ (text.getLast? = some '\r' → more.head? ≠ some '\n'))
    ⟨fun h => ⟨h.1, h.2⟩, fun parted => ⟨parted.ended, parted.whole⟩⟩

lemma IsEnded.endsLine {text : List Char} (h : IsEnded text) : EndsLine text :=
  h.imp_right fun last => ⟨'\n', last, rfl⟩

lemma IsEnded.parted {text : List Char} (h : IsEnded text) (more : List Char) :
    IsParted text more := by
  refine ⟨h.endsLine, fun carriage => ?_⟩
  rcases h with rfl | last
  · cases carriage
  · cases last.symm.trans carriage

lemma EndsLine.tail {c : Char} {text : List Char} (h : EndsLine (c :: text)) : EndsLine text := by
  cases text with
  | nil => exact .inl rfl
  | cons d rest => exact .inr (by simpa [EndsLine] using h)

lemma EndsLine.ne_nil_of_cons {c : Char} {text : List Char} (h : EndsLine (c :: text))
    (inline : isBreak c = false) : text ≠ [] := by
  rintro rfl
  simp [EndsLine, inline] at h

lemma IsParted.tail {c : Char} {text more : List Char} (h : IsParted (c :: text) more) :
    IsParted text more := by
  refine ⟨h.ended.tail, fun carriage => h.whole ?_⟩
  cases text with
  | nil => cases carriage
  | cons d rest => exact carriage

lemma lines_ne_nil {text : List Char} (some : text ≠ []) : lines text ≠ [] := by
  intro none
  rw [← flatMap_text_lines text, none] at some
  exact some rfl

lemma prependChar_append (c : Char) {ls : List SourceLine} (some : ls ≠ [])
    (more : List SourceLine) : prependChar c (ls ++ more) = prependChar c ls ++ more := by
  cases ls with
  | nil => exact absurd rfl some
  | cons l ls => rfl

lemma IsParted.not_joined {c : Char} {rest more : List Char} (h : IsParted (c :: rest) more)
    (other : ∀ below, c = '\r' → rest = '\n' :: below → False) :
    ∀ below, c = '\r' → rest ++ more = '\n' :: below → False := by
  rintro below rfl feed
  cases rest with
  | nil => exact h.whole rfl (congrArg List.head? feed)
  | cons d rest =>
    obtain ⟨rfl, -⟩ := List.cons.inj feed
    exact other rest rfl rfl

lemma lines_append {text more : List Char} (parted : IsParted text more) :
    lines (text ++ more) = lines text ++ lines more := by
  fun_induction lines text with
  | case1 => rfl
  | case2 rest ih => simp [lines, ih parted.tail.tail]
  | case3 c rest other stop ih =>
    rw [List.cons_append, lines.eq_3 _ _ (parted.not_joined other), if_pos stop, ih parted.tail,
      List.cons_append]
  | case4 c rest other inner ih =>
    have some : rest ≠ [] := parted.ended.ne_nil_of_cons (by simpa using inner)
    rw [List.cons_append, lines.eq_3 _ _ (parted.not_joined other), if_neg inner, ih parted.tail,
      prependChar_append c (lines_ne_nil some)]

lemma ending_ne_nil {text : List Char} (ended : EndsLine text) :
    ∀ l ∈ lines text, l.ending ≠ [] := by
  fun_induction lines text with
  | case1 => simp
  | case2 rest ih => exact List.forall_mem_cons.mpr ⟨by simp, ih ended.tail.tail⟩
  | case3 c rest other stop ih => exact List.forall_mem_cons.mpr ⟨by simp, ih ended.tail⟩
  | case4 c rest other inner ih =>
    have some : rest ≠ [] := ended.ne_nil_of_cons (by simpa using inner)
    have below := ih ended.tail
    cases here : lines rest with
    | nil => exact absurd here (lines_ne_nil some)
    | cons l ls =>
      rw [here] at below
      exact List.forall_mem_cons.mpr (List.forall_mem_cons.mp below)

lemma breakCount_of_endsLine {text : List Char} (ended : EndsLine text) :
    breakCount text = (lines text).length :=
  List.countP_eq_length.mpr fun l hl => by simpa using ending_ne_nil ended l hl

lemma IsParted.stripMark {text more : List Char} (parted : IsParted text more) :
    IsParted (stripMark text) more := by
  cases text with
  | nil => exact parted
  | cons c rest =>
    rw [Text.stripMark]
    split
    · exact parted.tail
    · exact parted

lemma EndsLine.stripMark {text : List Char} (ended : EndsLine text) : EndsLine (stripMark text) :=
  have parted : IsParted text [] := ⟨ended, by simp⟩
  parted.stripMark.ended

lemma stripMark_append {text : List Char} (some : text ≠ []) (more : List Char) :
    stripMark (text ++ more) = stripMark text ++ more := by
  cases text with
  | nil => exact absurd rfl some
  | cons c rest =>
    rw [List.cons_append, stripMark, stripMark]
    split <;> rfl

lemma stripMark_of_unmarked {text : List Char} (unmarked : text.head? ≠ some byteOrderMark) :
    stripMark text = text := by
  cases text with
  | nil => rfl
  | cons c rest => exact if_neg fun mark => unmarked (congrArg some mark)

lemma length_lines_stripMark {text : List Char} (ended : EndsLine text) :
    (lines (stripMark text)).length = (lines text).length := by
  cases text with
  | nil => rfl
  | cons c rest =>
    rw [stripMark]
    split
    case isFalse => rfl
    case isTrue mark =>
      have some : rest ≠ [] := ended.ne_nil_of_cons (by rw [mark]; decide)
      rw [lines.eq_3 _ _ (by rw [mark]; simp [byteOrderMark]), if_neg (by rw [mark]; decide)]
      cases here : lines rest with
      | nil => exact absurd here (lines_ne_nil some)
      | cons l ls => rfl

end FeatureFile.Text
