import FeatureFile.Proofs.Document.Written
import FeatureFile.Proofs.Token.Passage

namespace FeatureFile

open Text (SourceLine byteLength isBreak)
open Lexeme (ofContent ofEnding)

namespace RawLine

def ofLines (m : Mark) (within : Option Fence) (ls : List SourceLine) : List RawLine :=
  ofTokens (Token.place m (Lexeme.ofLines within ls))

def placeBehind (m : Mark) (within : Option Fence) (l : SourceLine) : Mark :=
  Token.placeEnd m (ofContent within l.content ++ ofEnding l.ending)

lemma ofLines_cons {l : SourceLine} {rest : List SourceLine} (cut : Text.Cuts (l :: rest)) (m : Mark)
    (within : Option Fence) :
    ofLines m within (l :: rest) = read m within l.content l.ending ::
      ofLines (placeBehind m within l) (Fence.behind within (l.content.dropWhile Text.isPad)) rest := by
  refine ofTokens_place_line m within (fun bare => ?_) fun bare => ?_
  · cases cut with
    | last some => exact some
    | cons ending _ => exact absurd bare ending
  · cases cut with
    | last _ => rfl
    | cons ending _ => exact absurd bare ending

end RawLine

open RawLine (placeBehind)

namespace Passage

def wholeLines (before : List Char) : List SourceLine → List Passage
  | [] => []
  | l :: rest => ⟨before, l.text⟩ :: wholeLines (before ++ l.text) rest

def linesBelow (text : List Char) (m : Mark) : List Passage :=
  (wholeLines (Text.markOf text) (Text.lines (Text.stripMark text))).filter (m.offset < ·.start)

lemma wholeLines_append (before : List Char) (ls more : List SourceLine) :
    wholeLines before (ls ++ more) =
      wholeLines before ls ++ wholeLines (before ++ ls.flatMap SourceLine.text) more := by
  induction ls generalizing before with
  | nil => simp [wholeLines]
  | cons l ls ih => simp [wholeLines, ih]

lemma start_of_mem_wholeLines {before : List Char} {ls : List SourceLine} {p : Passage}
    (h : p ∈ wholeLines before ls) :
    byteLength before ≤ p.start ∧ p.start ≤ byteLength (before ++ ls.flatMap SourceLine.text) := by
  induction ls generalizing before with
  | nil => cases h
  | cons l rest ih =>
    rw [List.flatMap_cons, ← List.append_assoc]
    rcases List.mem_cons.mp h with rfl | h
    · simp only [start, Text.byteLength_append]
      omega
    · refine (ih h).imp_left fun later => ?_
      rw [Text.byteLength_append] at later
      exact (Nat.le_add_right _ _).trans later

structure GoesOn (text : List Char) (m : Mark) (before : List Char) (within : Option Fence)
    (ls : List SourceLine) : Prop where
  lines : ∃ above, Text.lines (Text.stripMark text) = above ++ ls ∧
    before = Text.markOf text ++ above.flatMap SourceLine.text
  read : IsReadAt text ⟨before, ls.flatMap SourceLine.text⟩ m (Lexeme.ofLines within ls)

namespace GoesOn

variable {text before : List Char} {m : Mark} {within : Option Fence} {l : SourceLine}
  {ls rest : List SourceLine}

lemma origin (text : List Char) :
    GoesOn text (Stream.origin text) (Text.markOf text) none (Text.lines (Text.stripMark text)) := by
  refine ⟨⟨[], rfl, (List.append_nil _).symm⟩, ⟨⟨[], [], ?_, (List.append_nil _).symm, rfl⟩, ?_⟩⟩
  · rw [List.append_nil]
    rfl
  · exact (Lexeme.flatMap_text_ofLines _ _).symm

lemma cut (h : GoesOn text m before within ls) : Text.Cuts ls := by
  obtain ⟨above, whole, -⟩ := h.lines
  exact (whole ▸ Text.cuts_lines (Text.stripMark text)).of_append

lemma whole (h : GoesOn text m before within ls) : text = before ++ ls.flatMap SourceLine.text := by
  obtain ⟨above, whole, rfl⟩ := h.lines
  rw [List.append_assoc, ← List.flatMap_append, ← whole, Text.flatMap_text_lines,
    Text.markOf_append_stripMark]

lemma inline (h : GoesOn text m before within (l :: rest)) : ∀ c ∈ l.content, isBreak c = false := by
  obtain ⟨above, whole, -⟩ := h.lines
  exact Text.inline_of_mem_lines (Text.stripMark text) l (whole ▸ by simp)

lemma ends (h : GoesOn text m before within (l :: rest)) : ∀ c ∈ l.ending, isBreak c := by
  obtain ⟨above, whole, -⟩ := h.lines
  exact Text.isBreak_of_mem_ending (Text.stripMark text) l (whole ▸ by simp)

lemma isBreak_behind (h : GoesOn text m before within (l :: rest)) :
    ∀ c ∈ (l.ending ++ rest.flatMap SourceLine.text).head?, isBreak c := by
  cases h.cut with
  | last _ => simp
  | cons some _ =>
    intro c hc
    rw [List.head?_append_of_ne_nil _ some] at hc
    exact h.ends c (List.mem_of_mem_head? hc)

lemma flatMap_text_line (within : Option Fence) (l : SourceLine) :
    (ofContent within l.content ++ ofEnding l.ending).flatMap Lexeme.text = l.text := by
  rw [List.flatMap_append, Lexeme.flatMap_text_ofContent, Lexeme.flatMap_text_ofEnding,
    SourceLine.text]

lemma line (h : GoesOn text m before within (l :: rest)) :
    IsReadAt text ⟨before, l.text⟩ m (ofContent within l.content ++ ofEnding l.ending) :=
  flatMap_text_line within l ▸ h.read.front

lemma next (h : GoesOn text m before within (l :: rest)) :
    GoesOn text (placeBehind m within l) (before ++ l.text)
      (Fence.behind within (l.content.dropWhile Text.isPad)) rest := by
  obtain ⟨above, whole, rfl⟩ := h.lines
  refine ⟨⟨above ++ [l], by simp [whole], by simp⟩, ?_⟩
  have behind := h.read.behind
  rwa [flatMap_text_line, Lexeme.flatMap_text_ofLines] at behind

lemma split (h : GoesOn text m before within ls) {above below : List RawLine} {raw : RawLine}
    (whole : RawLine.ofLines m within ls = above ++ raw :: below) :
    ∃ m' before' within' l rest, GoesOn text m' before' within' (l :: rest) ∧
      raw = RawLine.read m' within' l.content l.ending ∧
      below = RawLine.ofLines (placeBehind m' within' l)
        (Fence.behind within' (l.content.dropWhile Text.isPad)) rest := by
  induction ls generalizing m before within above with
  | nil => cases above <;> cases whole
  | cons l rest ih =>
    have lines := (RawLine.ofLines_cons h.cut m within).symm.trans whole
    cases above with
    | nil =>
      obtain ⟨rfl, rfl⟩ := List.cons.inj lines
      exact ⟨m, before, within, l, rest, h, rfl, rfl⟩
    | cons first above => exact ih h.next (List.cons.inj lines).2

lemma linesBelow_eq (h : GoesOn text m before within (l :: rest)) {t : Mark}
    (behind : byteLength before ≤ t.offset) (inside : t.offset < byteLength (before ++ l.text)) :
    linesBelow text t = wholeLines (before ++ l.text) rest := by
  obtain ⟨above, whole, rfl⟩ := h.lines
  have front : ∀ p ∈ wholeLines (Text.markOf text) (above ++ [l]), ¬ decide (t.offset < p.start) := by
    rw [wholeLines_append]
    simp only [decide_eq_true_eq, Nat.not_lt]
    refine List.forall_mem_append.mpr ⟨fun p hp => (start_of_mem_wholeLines hp).2.trans behind, ?_⟩
    intro p hp
    obtain rfl := List.mem_singleton.mp hp
    exact behind
  have back : ∀ p ∈ wholeLines (Text.markOf text ++ above.flatMap SourceLine.text ++ l.text) rest,
      decide (t.offset < p.start) :=
    fun p hp => decide_eq_true (inside.trans_le (start_of_mem_wholeLines hp).1)
  have split := wholeLines_append (Text.markOf text) (above ++ [l]) rest
  rw [linesBelow, whole, ← List.singleton_append, ← List.append_assoc, split, List.filter_append,
    List.filter_eq_nil_iff.mpr front, List.nil_append]
  simpa using back

end GoesOn

end Passage

end FeatureFile
