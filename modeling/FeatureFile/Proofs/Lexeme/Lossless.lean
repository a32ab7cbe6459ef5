import FeatureFile.Proofs.Lexeme.Line
import FeatureFile.Proofs.Keyword
import FeatureFile.Proofs.Lexeme.Cut
import FeatureFile.Proofs.Text.Lines

namespace FeatureFile.Lexeme

open Text

lemma flatMap_text_pads (text : List Char) : (text.map pad).flatMap Lexeme.text = text := by
  induction text with
  | nil => rfl
  | cons c text ih => simp [pad, ih]

lemma flatMap_text_keywordLine (m : Keyword.Match) (text : List Char) :
    (keywordLine m text).flatMap Lexeme.text = text := by
  have whole := List.take_append_drop m.length text
  rw [keywordLine]
  cases h : text.drop m.length with
  | nil => simpa [h] using whole
  | cons c after =>
    rw [h] at whole
    dsimp only
    split
    · simpa [flatMap_text_cut] using whole
    · split <;> simpa [flatMap_text_cut] using whole

lemma flatMap_text_plainLine (text : List Char) :
    (plainLine text).flatMap Lexeme.text = text := by
  unfold plainLine
  split
  · rfl
  · simp
  · simp [flatMap_text_cut]
  · simp [flatMap_text_cut]
  · split
    · simp [fence, flatMap_text_cut]
    · split
      · exact flatMap_text_keywordLine _ _
      · simp [flatMap_text_cut]

lemma flatMap_text_fencedLine (within : Fence) (text : List Char) :
    (fencedLine within text).flatMap Lexeme.text = text := by
  rw [fencedLine]
  split <;> simp [fence, flatMap_text_cut]

lemma flatMap_text_ofContent (within : Option Fence) (content : List Char) :
    (ofContent within content).flatMap Lexeme.text = content := by
  cases within <;>
    simp [ofContent, flatMap_text_pads, flatMap_text_plainLine, flatMap_text_fencedLine]

lemma flatMap_text_ofEnding (ending : List Char) :
    (ofEnding ending).flatMap Lexeme.text = ending := by
  cases ending <;> simp [ofEnding]

lemma flatMap_text_ofLines (within : Option Fence) (ls : List SourceLine) :
    (ofLines within ls).flatMap Lexeme.text = ls.flatMap SourceLine.text := by
  induction ls generalizing within with
  | nil => rfl
  | cons l ls ih =>
    simp [ofLines, ih, flatMap_text_ofContent, flatMap_text_ofEnding, SourceLine.text]

theorem flatMap_text_ofText (text : List Char) : (ofText text).flatMap Lexeme.text = text := by
  rw [ofText, flatMap_text_ofLines, flatMap_text_lines]

lemma text_fence_ne_nil {f : Fence} {text : List Char} (h : f.marker.isPrefixOf text) :
    (fence text).text ≠ [] := by
  cases text with
  | nil => cases f <;> simp [Fence.marker] at h
  | cons c rest => simp [fence]

lemma text_ne_nil_of_mem_keywordLine {m : Keyword.Match} {text : List Char} {l : Lexeme}
    (found : Keyword.at? text = some m) (nonempty : text ≠ []) (h : l ∈ keywordLine m text) :
    l.text ≠ [] := by
  have positive := Keyword.length_pos_of_at? found
  rcases List.mem_cons.mp h with rfl | h
  · simpa [Nat.ne_of_gt positive] using nonempty
  · split at h
    · cases h
    · split at h
      · rcases List.mem_cons.mp h with rfl | h
        · simp
        · exact text_ne_nil_of_mem_cut _ h
      · split at h
        · obtain rfl := List.mem_singleton.mp h
          simp_all
        · exact text_ne_nil_of_mem_cut _ h

lemma text_ne_nil_of_mem_plainLine {text : List Char} {l : Lexeme} (h : l ∈ plainLine text) :
    l.text ≠ [] := by
  unfold plainLine at h
  split at h
  · cases h
  · obtain rfl := List.mem_singleton.mp h
    simp
  · exact text_ne_nil_of_mem_cut _ h
  · exact text_ne_nil_of_mem_cut _ h
  · split at h
    case h_1 f found =>
      rcases List.mem_cons.mp h with rfl | h
      · unfold Fence.at? at found
        split at found
        · exact text_fence_ne_nil ‹_›
        · split at found
          · exact text_fence_ne_nil ‹_›
          · cases found
      · exact text_ne_nil_of_mem_cut _ h
    case h_2 =>
      split at h
      · exact text_ne_nil_of_mem_keywordLine ‹_› (by assumption) h
      · exact text_ne_nil_of_mem_cut _ h

lemma text_ne_nil_of_mem_fencedLine {within : Fence} {text : List Char} {l : Lexeme}
    (h : l ∈ fencedLine within text) : l.text ≠ [] := by
  rw [fencedLine] at h
  split at h
  case isTrue closes =>
    rcases List.mem_cons.mp h with rfl | h
    · exact text_fence_ne_nil closes
    · exact text_ne_nil_of_mem_cut _ h
  case isFalse => exact text_ne_nil_of_mem_cut _ h

lemma text_ne_nil_of_mem_ofContent {within : Option Fence} {content : List Char} {l : Lexeme}
    (h : l ∈ ofContent within content) : l.text ≠ [] := by
  rcases List.mem_append.mp h with h | h
  · obtain ⟨c, _, rfl⟩ := List.mem_map.mp h
    simp [pad]
  · cases within with
    | none => exact text_ne_nil_of_mem_plainLine h
    | some f => exact text_ne_nil_of_mem_fencedLine h

lemma text_ne_nil_of_mem_ofLines {within : Option Fence} {ls : List SourceLine} {l : Lexeme}
    (h : l ∈ ofLines within ls) : l.text ≠ [] := by
  induction ls generalizing within with
  | nil => cases h
  | cons line ls ih =>
    rcases List.mem_append.mp h with h | h
    · rcases List.mem_append.mp h with h | h
      · exact text_ne_nil_of_mem_ofContent h
      · cases ending : line.ending with
        | nil => simp [ofEnding, ending] at h
        | cons c rest =>
          simp only [ofEnding, ending, List.mem_singleton] at h
          simp [h]
    · exact ih h

theorem text_ne_nil_of_mem_ofText {text : List Char} {l : Lexeme} (h : l ∈ ofText text) :
    l.text ≠ [] :=
  text_ne_nil_of_mem_ofLines h

end FeatureFile.Lexeme
