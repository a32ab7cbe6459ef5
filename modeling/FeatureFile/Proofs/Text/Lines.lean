import Mathlib.Data.List.TakeWhile
import Mathlib.Tactic.Lemma
import FeatureFile.Text.Blank
import FeatureFile.Text.Lines

namespace FeatureFile.Text

/-- Decided along the text, never by running through all characters. -/
instance decidableForallMem (p : Char → Prop) [DecidablePred p] (text : List Char) :
    Decidable (∀ c ∈ text, p c) :=
  List.decidableBAll p text

lemma isPad_iff {c : Char} : isPad c ↔ c = ' ' ∨ c = '\t' := by
  simp [isPad]

lemma isBreak_iff {c : Char} : isBreak c ↔ c = '\r' ∨ c = '\n' := by
  simp [isBreak]

lemma isBreak_of_isPad {c : Char} (pad : isPad c) : isBreak c = false := by
  rcases isPad_iff.mp pad with rfl | rfl <;> rfl

lemma flatMap_text_prependChar (c : Char) (ls : List SourceLine) :
    (prependChar c ls).flatMap SourceLine.text = c :: ls.flatMap SourceLine.text := by
  cases ls <;> simp [prependChar, SourceLine.text]

lemma flatMap_text_lines (text : List Char) : (lines text).flatMap SourceLine.text = text := by
  fun_induction lines text with
  | case1 => rfl
  | case2 rest ih => simp [SourceLine.text, ih]
  | case3 c rest _ hc ih => simp [SourceLine.text, ih]
  | case4 c rest _ hc ih => simp [flatMap_text_prependChar, ih]

lemma isBreak_of_mem_ending (text : List Char) : ∀ l ∈ lines text, ∀ c ∈ l.ending, isBreak c := by
  fun_induction lines text with
  | case1 => simp
  | case2 rest ih => exact List.forall_mem_cons.mpr ⟨by simp [isBreak], ih⟩
  | case3 c rest _ hc ih => exact List.forall_mem_cons.mpr ⟨by simpa using hc, ih⟩
  | case4 c rest _ hc ih =>
    cases below : lines rest with
    | nil => simp [prependChar]
    | cons l ls =>
      obtain ⟨line, others⟩ := List.forall_mem_cons.mp (below ▸ ih)
      exact List.forall_mem_cons.mpr ⟨line, others⟩

lemma inline_of_mem_lines (text : List Char) :
    ∀ l ∈ lines text, ∀ c ∈ l.content, isBreak c = false := by
  fun_induction lines text with
  | case1 => simp
  | case2 rest ih => exact List.forall_mem_cons.mpr ⟨by simp, ih⟩
  | case3 c rest _ hc ih => exact List.forall_mem_cons.mpr ⟨by simp, ih⟩
  | case4 c rest _ hc ih =>
    have first : isBreak c = false := by simpa using hc
    cases here : lines rest with
    | nil => simpa [prependChar] using first
    | cons l ls =>
      rw [here] at ih
      obtain ⟨line, others⟩ := List.forall_mem_cons.mp ih
      exact List.forall_mem_cons.mpr ⟨List.forall_mem_cons.mpr ⟨first, line⟩, others⟩

lemma lines_feed (rest : List Char) : lines ('\n' :: rest) = ⟨[], ['\n']⟩ :: lines rest := by
  simp [lines, isBreak]

lemma lines_inline {c : Char} (inline : isBreak c = false) (rest : List Char) :
    lines (c :: rest) = prependChar c (lines rest) := by
  have other : c ≠ '\r' := by
    rintro rfl
    simp [isBreak] at inline
  simp [lines, inline, other]

def IsLineEnd (ending more : List Char) : Prop :=
  ending = ['\n'] ∨ ending = ['\r', '\n'] ∨ (ending = ['\r'] ∧ more.head? ≠ some '\n') ∨
    (ending = [] ∧ more = [])

instance (ending more : List Char) : Decidable (IsLineEnd ending more) :=
  inferInstanceAs (Decidable (_ ∨ _ ∨ _ ∨ _))

def breaks : List (List Char) :=
  [['\n'], ['\r', '\n'], ['\r']]

lemma isLineEnd_of_mem_breaks {ending more : List Char} (stop : ending ∈ breaks)
    (apart : more.head? ≠ some '\n') : IsLineEnd ending more := by
  simp only [breaks, List.mem_cons, List.not_mem_nil, or_false] at stop
  rcases stop with rfl | rfl | rfl
  · exact .inl rfl
  · exact .inr (.inl rfl)
  · exact .inr (.inr (.inl ⟨rfl, apart⟩))

lemma head?_append_ne_feed {content : List Char} (inline : ∀ c ∈ content, isBreak c = false)
    (some : content ≠ []) (rest : List Char) : (content ++ rest).head? ≠ Option.some '\n' := by
  obtain ⟨c, cs, rfl⟩ := List.exists_cons_of_ne_nil some
  have first := inline c List.mem_cons_self
  intro feed
  obtain rfl : c = '\n' := Option.some.inj feed
  cases first

lemma lines_inline_append {content text : List Char} (inline : ∀ c ∈ content, isBreak c = false)
    {line : SourceLine} {rest : List SourceLine} (below : lines text = line :: rest) :
    lines (content ++ text) = ⟨content ++ line.content, line.ending⟩ :: rest := by
  induction content with
  | nil => exact below
  | cons c content ih =>
    obtain ⟨first, others⟩ := List.forall_mem_cons.mp inline
    rw [List.cons_append, lines_inline first, ih others, prependChar]
    rfl

lemma lines_of_inline {content : List Char} (inline : ∀ c ∈ content, isBreak c = false)
    (some : content ≠ []) : lines content = [⟨content, []⟩] := by
  induction content with
  | nil => exact absurd rfl some
  | cons c content ih =>
    obtain ⟨first, others⟩ := List.forall_mem_cons.mp inline
    rw [lines_inline first]
    cases content with
    | nil => rfl
    | cons d content => rw [ih others (by simp), prependChar]

lemma lines_line {content ending more : List Char} (inline : ∀ c ∈ content, isBreak c = false)
    (stop : IsLineEnd ending more) (some : content ++ ending ≠ []) :
    lines (content ++ (ending ++ more)) = ⟨content, ending⟩ :: lines more := by
  have behind (below : lines (ending ++ more) = ⟨[], ending⟩ :: lines more) :
      lines (content ++ (ending ++ more)) = ⟨content, ending⟩ :: lines more := by
    simpa using lines_inline_append inline below
  rcases stop with rfl | rfl | ⟨rfl, apart⟩ | ⟨rfl, rfl⟩
  · exact behind (lines_feed more)
  · exact behind (lines.eq_2 more)
  · exact behind (lines.eq_3 _ _ fun below _ feed => apart (congrArg List.head? feed))
  · rw [List.append_nil] at some
    rw [List.append_nil, List.append_nil]
    exact lines_of_inline inline some

lemma exists_line {text : List Char} (some : text ≠ []) :
    ∃ content ending more, text = content ++ (ending ++ more) ∧ (∀ c ∈ content, isBreak c = false) ∧
      IsLineEnd ending more ∧ (∀ c ∈ ending, isBreak c) ∧ content ++ ending ≠ [] := by
  have whole := (List.takeWhile_append_dropWhile (p := (!isBreak ·)) (l := text)).symm
  have inline : ∀ c ∈ text.takeWhile (!isBreak ·), isBreak c = false :=
    fun c hc => by simpa using List.mem_takeWhile_imp hc
  have head := List.head?_dropWhile_not (!isBreak ·) text
  cases behind : text.dropWhile (!isBreak ·) with
  | nil =>
    rw [behind, List.append_nil] at whole
    exact ⟨text, [], [], by simp, whole ▸ inline, .inr (.inr (.inr ⟨rfl, rfl⟩)), by simp, by simpa⟩
  | cons c rest =>
    rw [behind] at whole head
    have stop : isBreak c := by simpa using head
    rcases isBreak_iff.mp stop with rfl | rfl
    · by_cases feed : rest.head? = Option.some '\n'
      · obtain ⟨more, rfl⟩ := List.head?_eq_some_iff.mp feed
        exact ⟨_, ['\r', '\n'], more, whole, inline, .inr (.inl rfl), by decide, by simp⟩
      · exact ⟨_, ['\r'], rest, whole, inline, .inr (.inr (.inl ⟨rfl, feed⟩)), by decide, by simp⟩
    · exact ⟨_, ['\n'], rest, whole, inline, .inl rfl, by decide, by simp⟩

inductive Cuts : List SourceLine → Prop
  | nil : Cuts []
  | last {content : List Char} : content ≠ [] → Cuts [⟨content, []⟩]
  | cons {l : SourceLine} {rest : List SourceLine} : l.ending ≠ [] → Cuts rest → Cuts (l :: rest)

lemma Cuts.prependChar (c : Char) {ls : List SourceLine} (h : Cuts ls) :
    Cuts (prependChar c ls) := by
  cases h with
  | nil => exact .last (by simp)
  | last _ => exact .last (by simp)
  | cons hl hr => exact .cons hl hr

lemma Cuts.tail {l : SourceLine} {rest : List SourceLine} (h : Cuts (l :: rest)) : Cuts rest := by
  cases h with
  | last _ => exact .nil
  | cons _ others => exact others

lemma Cuts.of_append {ls rest : List SourceLine} (h : Cuts (ls ++ rest)) : Cuts rest := by
  induction ls with
  | nil => exact h
  | cons l ls ih => exact ih (Cuts.tail h)

lemma cuts_lines (text : List Char) : Cuts (lines text) := by
  fun_induction lines text with
  | case1 => exact .nil
  | case2 rest ih => exact .cons (by simp) ih
  | case3 c rest _ hc ih => exact .cons (by simp) ih
  | case4 c rest _ hc ih => exact ih.prependChar c

end FeatureFile.Text
