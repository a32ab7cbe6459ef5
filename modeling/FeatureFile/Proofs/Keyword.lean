import Mathlib.Tactic.Lemma
import FeatureFile.Keyword
import FeatureFile.Text.Blank
import FeatureFile.Text.Lines

namespace FeatureFile.Keyword

lemma mem_of_longest {ms : List Match} {m : Match} (h : longest ms = some m) : m ∈ ms := by
  induction ms generalizing m with
  | nil => simp [longest] at h
  | cons n ms ih =>
    rw [longest] at h
    split at h
    case h_1 found =>
      split at h
      · obtain rfl := Option.some.inj h
        exact List.mem_cons_of_mem _ (ih found)
      · obtain rfl := Option.some.inj h
        exact List.mem_cons_self
    case h_2 =>
      obtain rfl := Option.some.inj h
      exact List.mem_cons_self

lemma eq_drop_of_after? {phrase text rest : List Char} (h : after? phrase text = some rest) :
    rest = text.drop phrase.length := by
  fun_induction after? phrase text with
  | case1 text => simpa using h.symm
  | case2 => cases h
  | case3 p phrase c text same ih => simpa using ih h
  | case4 => cases h

lemma length_le_of_after? {phrase text rest : List Char} (h : after? phrase text = some rest) :
    phrase.length ≤ text.length := by
  fun_induction after? phrase text with
  | case1 text => exact Nat.zero_le _
  | case2 => cases h
  | case3 p phrase c text same ih => exact Nat.succ_le_succ (ih h)
  | case4 => cases h

lemma after?_of_at? {text : List Char} {m : Match} (h : at? text = some m) :
    ∃ phrase ∈ m.kind.phrases, m.kind ∈ kinds ∧ m.length = phrase.toList.length ∧
      after? phrase.toList text = some (text.drop m.length) ∧
      endsBefore m.kind (text.drop m.length) := by
  have candidate : m ∈ candidates text := mem_of_longest h
  simp only [candidates, List.mem_flatMap, List.mem_filterMap] at candidate
  obtain ⟨kind, hk, phrase, hp, found⟩ := candidate
  rw [matchPhrase] at found
  split at found
  case h_2 => cases found
  case h_1 rest after =>
    split at found
    case isFalse => cases found
    case isTrue ends =>
      obtain rfl := Option.some.inj found
      obtain rfl := eq_drop_of_after? after
      exact ⟨phrase, hp, hk, rfl, after, ends⟩

lemma phrase_of_at? {text : List Char} {m : Match} (h : at? text = some m) :
    ∃ phrase ∈ m.kind.phrases, m.kind ∈ kinds ∧ m.length = phrase.toList.length ∧
      endsBefore m.kind (text.drop m.length) := by
  obtain ⟨phrase, hp, hk, length, -, ends⟩ := after?_of_at? h
  exact ⟨phrase, hp, hk, length, ends⟩

lemma length_le_of_at? {text : List Char} {m : Match} (h : at? text = some m) :
    m.length ≤ text.length := by
  obtain ⟨_, _, _, length, after, _⟩ := after?_of_at? h
  exact length ▸ length_le_of_after? after

lemma length_phrase_pos : ∀ kind ∈ kinds, ∀ phrase ∈ kind.phrases, 0 < phrase.toList.length := by
  simp [kinds, TokenKind.phrases, HeaderWord.phrases, StepWord.phrases]

lemma length_pos_of_at? {text : List Char} {m : Match} (h : at? text = some m) : 0 < m.length := by
  obtain ⟨phrase, hp, hk, length, _⟩ := phrase_of_at? h
  exact length ▸ length_phrase_pos _ hk _ hp

lemma isKeyword_of_at? {text : List Char} {m : Match} (h : at? text = some m) :
    m.kind.isKeyword := by
  obtain ⟨_, _, hk, _⟩ := phrase_of_at? h
  have all : ∀ kind ∈ kinds, kind.isKeyword := by decide
  exact all _ hk

lemma colon_of_at? {text : List Char} {m : Match} (h : at? text = some m)
    (header : m.kind.isHeader) :
    ∃ after, text.drop m.length = ':' :: after := by
  obtain ⟨_, _, _, _, ends⟩ := phrase_of_at? h
  cases hd : text.drop m.length with
  | nil => simp [endsBefore, hd, header] at ends
  | cons c after =>
    simp only [endsBefore, hd, header, if_true, decide_eq_true_eq] at ends
    exact ⟨after, by rw [ends]⟩

lemma mem_of_at? {text : List Char} {m : Match} (h : at? text = some m)
    (step : m.kind.isHeader = false) {c : Char} {after : List Char}
    (rest : text.drop m.length = c :: after) : c ∈ [' ', '\t', '\r', '\n', '#'] := by
  obtain ⟨_, _, _, _, ends⟩ := phrase_of_at? h
  simpa [rest, endsBefore, step] using ends

lemma isPad_of_at? {text : List Char} {m : Match} (h : at? text = some m)
    (step : m.kind.isHeader = false) {c : Char} {after : List Char}
    (rest : text.drop m.length = c :: after) (inline : Text.isBreak c = false) (other : c ≠ '#') :
    Text.isPad c := by
  have mem := mem_of_at? h step rest
  simp only [List.mem_cons, List.not_mem_nil, or_false] at mem
  rcases mem with rfl | rfl | rfl | rfl | rfl
  · rfl
  · rfl
  · cases inline
  · cases inline
  · exact absurd rfl other

end FeatureFile.Keyword
