import FeatureFile.Proofs.FreeText.Scan
import FeatureFile.Proofs.Keyword.Recognition

namespace FeatureFile

open Text (isPad isBreak isAlphanumeric byteLength SourceLine)

namespace Found

def IsTidy (l : Lexeme) : Prop :=
  l.openQuote ≠ none → l.kind = .text

lemma literals_place (m : Mark) (ls : List Lexeme) :
    ((Token.place m ls).filter (·.kind.isEmbedded)).map
        (fun t => (t.kind, t.start.offset, t.stop.offset)) =
      (ofLexemes m.offset ls).filterMap literal? := by
  induction ls generalizing m with
  | nil => rfl
  | cons l ls ih =>
    have rest := ih (m.advance l.kind l.text)
    rw [Mark.offset_advance] at rest
    rw [Token.place, ofLexemes, List.filterMap_append, ← rest, ofLexeme?, List.filter_cons]
    split
    · simp [literal?, Token.offset_stop]
    · cases l.openQuote <;> rfl

lemma quotes_place (m : Mark) {ls : List Lexeme} (tidy : ∀ l ∈ ls, IsTidy l) :
    (ScanNote.quoteReports m ls).map (fun r => (r.start.offset, r.stop)) =
      (ofLexemes m.offset ls).filterMap openQuote? := by
  induction ls generalizing m with
  | nil => rfl
  | cons l ls ih =>
    obtain ⟨first, others⟩ := List.forall_mem_cons.mp tidy
    have rest := ih (m.advance l.kind l.text) others
    rw [Mark.offset_advance] at rest
    rw [ScanNote.quoteReports, ofLexemes, List.map_append, List.filterMap_append, rest, ofLexeme?,
      ScanNote.quoteReport?]
    cases quote : l.openQuote with
    | none =>
      rw [Option.map_none, ite_self]
      split <;> rfl
    | some width =>
      have kind := first (by simp [quote])
      rw [kind]
      rfl

lemma kind_of_openQuote (previous : Option Char) (c : Char) (rest : List Char) :
    (Lexeme.freeText previous c rest).openQuote ≠ none →
      (Lexeme.freeText previous c rest).kind = .text := by
  rw [Lexeme.freeText]
  split
  · exact fun some => absurd rfl some
  · split
    · split
      · exact fun some => absurd rfl some
      · exact fun _ => rfl
    · exact fun _ => rfl

lemma isTidy_of_mem_cut {previous : Option Char} {n : Nat} {text : List Char} {l : Lexeme}
    (h : l ∈ Lexeme.cut Lexeme.freeText previous n text) : IsTidy l := by
  induction text generalizing previous n with
  | nil => cases h
  | cons c rest ih =>
    cases n with
    | succ n => exact ih h
    | zero =>
      rcases List.mem_cons.mp h with rfl | h
      · exact kind_of_openQuote previous c rest
      · exact ih h

lemma inText_congr {q q' : Option Char} {text : List Char} (offset : Nat)
    (same : ∀ c rest, text = c :: rest → Verdict.of q c rest = Verdict.of q' c rest) :
    inText q offset 0 text = inText q' offset 0 text := by
  cases text with
  | nil => rfl
  | cons c rest => rw [inText, inText, same c rest rfl]

end Found

def Literal.IsNeutral (previous : Option Char) : Prop :=
  ∀ q ∈ previous, isAlphanumeric q = false ∧ q ≠ '.' ∧ q ≠ '_'

lemma Verdict.of_neutral {previous : Option Char} (neutral : Literal.IsNeutral previous) (c : Char)
    (rest : List Char) : of previous c rest = of none c rest := by
  cases previous with
  | none => rfl
  | some q =>
    obtain ⟨word, noDot, noLine⟩ := neutral q rfl
    simp [of, word, noDot, noLine]

namespace Text

lemma isNeutral_of_mem {q : Char} (h : q ∈ [' ', '\t', '\r', '\n', byteOrderMark, ':']) :
    Literal.IsNeutral (some q) := by
  rintro _ ⟨⟩
  have all : ∀ q ∈ [' ', '\t', '\r', '\n', byteOrderMark, ':'],
      isAlphanumeric q = false ∧ q ≠ '.' ∧ q ≠ '_' := by
    decide +kernel
  exact all q h

end Text

namespace Passage

variable {text : List Char} {p : Passage} {w : Option Fence}

lemma isNeutral_of_mem_linesFrom {within : Option Fence} {before : List Char} {ls : List SourceLine}
    (cut : Text.Cuts ls) (ends : ∀ l ∈ ls, ∀ c ∈ l.ending, isBreak c)
    (neutral : Literal.IsNeutral before.getLast?) (h : (w, p) ∈ linesFrom within before ls) :
    Literal.IsNeutral p.before.getLast? := by
  induction cut generalizing within before with
  | nil => cases h
  | last =>
    obtain ⟨-, rfl⟩ := Prod.mk.inj (List.mem_singleton.mp h)
    exact neutral
  | @cons l rest ending _ ih =>
    rcases List.mem_cons.mp h with here | h
    · obtain ⟨-, rfl⟩ := Prod.mk.inj here
      exact neutral
    · obtain ⟨first, others⟩ := List.forall_mem_cons.mp ends
      refine ih others ?_ h
      rcases List.eq_nil_or_concat l.ending with none | ⟨front, c, whole⟩
      · exact absurd none ending
      · have last : (before ++ l.text).getLast? = some c := by
          simp [SourceLine.text, whole]
        have stop : isBreak c := first c (by simp [whole])
        rw [last]
        refine Text.isNeutral_of_mem ?_
        rcases Bool.or_eq_true_iff.mp stop with same | same <;> simp [of_decide_eq_true same]

lemma isNeutral_unpadded (h : (w, p) ∈ lines text) :
    Literal.IsNeutral p.unpadded.before.getLast? := by
  have mark : Literal.IsNeutral (Text.markOf text).getLast? := by
    rw [Text.markOf]
    split
    · exact Text.isNeutral_of_mem (by simp)
    · simp [Literal.IsNeutral]
  have front := isNeutral_of_mem_linesFrom (Text.cuts_lines _) (Text.isBreak_of_mem_ending _) mark h
  rw [unpadded, List.getLast?_append]
  cases last : (p.text.takeWhile isPad).getLast? with
  | none => exact front
  | some c =>
    have pad : isPad c := List.mem_takeWhile_imp (List.mem_of_getLast? last)
    refine Text.isNeutral_of_mem ?_
    rcases Text.isPad_iff.mp pad with rfl | rfl <;> simp

end Passage

/-- How many characters of a line, behind its padding, stand in front of free text. There is none
behind a sign of its own, behind an opening fence and in a doc string. -/
def Lexeme.freePart? (within : Option Fence) (line : List Char) : Option Nat :=
  match within with
  | some fence => if fence.marker.isPrefixOf line then some 3 else none
  | none =>
    if line.head? ∈ [some '#', some '|', some '@'] ∨ (Fence.at? line).isSome then none
    else
      match Keyword.at? line with
      | none => some 0
      | some m =>
        if m.kind.isHeader then some (m.length + 1)
        else if (line.drop m.length).head? = some '#' then none
        else some m.length

def Passage.segments (text : List Char) : List Passage :=
  (lines text).filterMap fun (w, p) =>
    (Lexeme.freePart? w p.unpadded.text).map p.unpadded.behind

lemma Text.isUnmarked_of_at? {line : List Char}
    (noSign : line.head? ∉ [some '#', some '|', some '@']) (noFence : Fence.at? line = none) :
    IsUnmarked line := by
  refine ⟨fun c hc sign => noSign ?_, fun f marker => ?_⟩
  · rw [Option.mem_def.mp hc]
    simpa using sign
  · have here := List.isPrefixOf_iff_prefix.mpr marker
    rw [Fence.at?] at noFence
    split at noFence
    · cases noFence
    case isFalse noQuotes =>
      split at noFence
      · cases noFence
      case isFalse noTicks =>
        cases f with
        | quotes => exact noQuotes here
        | backticks => exact noTicks here

namespace Lexeme

structure Leads (before line : List Char) (n : Nat) (ls lead : List Lexeme) (q : Option Char) :
    Prop where
  whole : ls = lead ++ cut freeText q 0 (line.drop n)
  text : lead.flatMap Lexeme.text = line.take n
  apart : Literal.IsApart q (line.drop n)
  same : ∀ c rest, line.drop n = c :: rest →
    Verdict.of q c rest = Verdict.of (before ++ line.take n).getLast? c rest

variable {before line : List Char} {n : Nat}

variable {m : Keyword.Match}

lemma exists_leads_header (found : Keyword.at? line = some m) (header : m.kind.isHeader) :
    ∃ lead q, Leads before line (m.length + 1) (keywordLine m line) lead q := by
  obtain ⟨after, colon⟩ := Keyword.colon_of_at? found header
  have taken : line.take (m.length + 1) = line.take m.length ++ [':'] := by
    rw [List.take_add, colon]
    rfl
  have behind : line.drop (m.length + 1) = after := by
    rw [← List.drop_drop, colon]
    rfl
  refine ⟨[⟨m.kind, line.take m.length, none⟩, ⟨.colon, [':'], none⟩], some ':', ?_, ?_, ?_, ?_⟩
  · simp [keywordLine, colon, header, behind]
  · simp [taken]
  · exact Literal.isApart_of_plain (by decide) _
  · intro c rest _
    rw [taken, ← List.append_assoc, List.getLast?_concat]

lemma exists_leads_step (found : Keyword.at? line = some m) (step : m.kind.isHeader = false)
    (noRemark : (line.drop m.length).head? ≠ some '#') :
    ∃ lead q, Leads before line m.length (keywordLine m line) lead q := by
  refine ⟨[⟨m.kind, line.take m.length, none⟩], none, ?_, ?_, ?_, ?_⟩
  · cases behind : line.drop m.length with
    | nil => simp [keywordLine, behind, cut]
    | cons c after =>
      have other : c ≠ '#' := fun here => noRemark (by rw [behind, here, List.head?_cons])
      simp [keywordLine, behind, step, other]
  · simp
  · simp [Literal.IsApart]
  · intro c rest behind
    have mem := Keyword.mem_of_at? found step behind
    have plain (q : Option Char) : Verdict.of q c rest = .nothing := by
      simp only [List.mem_cons, List.not_mem_nil, or_false] at mem
      rcases mem with rfl | rfl | rfl | rfl | rfl <;> exact Verdict.of_plain rfl (by decide) rfl
    rw [plain, plain]

lemma exists_leads_keyword (found : Keyword.at? line = some m)
    (free : (if m.kind.isHeader then some (m.length + 1)
      else if (line.drop m.length).head? = some '#' then none else some m.length) = some n) :
    ∃ lead q, Leads before line n (keywordLine m line) lead q := by
  split at free
  case isTrue header =>
    obtain rfl := Option.some.inj free
    exact exists_leads_header found header
  case isFalse step =>
    split at free
    · cases free
    case isFalse noRemark =>
      obtain rfl := Option.some.inj free
      exact exists_leads_step found (Bool.eq_false_iff.mpr step) noRemark

lemma exists_leads_plain (neutral : Literal.IsNeutral before.getLast?)
    (free : freePart? none line = some n) : ∃ lead q, Leads before line n (plainLine line) lead q := by
  rw [freePart?] at free
  split at free
  · cases free
  case isFalse marked =>
    obtain ⟨noSign, noFence⟩ := not_or.mp marked
    have unmarked : Text.IsUnmarked line := Text.isUnmarked_of_at? noSign (by simpa using noFence)
    rw [plainLine_of_unmarked unmarked]
    split at free
    case h_1 none =>
      obtain rfl := Option.some.inj free
      rw [none]
      refine ⟨[], .none, rfl, rfl, by simp [Literal.IsApart], fun c rest _ => ?_⟩
      rw [List.take_zero, List.append_nil, Verdict.of_neutral neutral]
    case h_2 m found =>
      rw [found]
      exact exists_leads_keyword found free

lemma exists_leads_fenced (before : List Char) {fence : Fence} (free : freePart? (some fence) line = some n) :
    ∃ lead q, Leads before line n (fencedLine fence line) lead q := by
  rw [freePart?] at free
  split at free
  case isFalse => cases free
  case isTrue closes =>
    obtain rfl := Option.some.inj free
    have marker := Fence.take_marker closes
    refine ⟨[Lexeme.fence line], fence.marker.getLast?, ?_, ?_, ?_, fun c rest _ => ?_⟩
    · rw [fencedLine, if_pos closes]
      rfl
    · simp [Lexeme.fence]
    · cases fence <;> exact Literal.isApart_of_plain (by decide) _
    · rw [marker]
      cases fence <;> simp [Fence.marker]

end Lexeme

namespace Passage

variable {text : List Char} {p : Passage} {w : Option Fence}

def found (p : Passage) : List Found :=
  Found.inText p.before.getLast? p.start 0 p.text

lemma IsRead.found_behind {ls lead : List Lexeme} {q : Option Char} {n : Nat}
    (read : IsRead text p ls) (leads : Lexeme.Leads p.before p.text n ls lead q) :
    let s := p.behind n
    (∃ back, text = s.before ++ s.text ++ back) ∧
      ((s.tokens text).filter (·.kind.isEmbedded)).map
          (fun t => (t.kind, t.start.offset, t.stop.offset)) = s.found.filterMap Found.literal? ∧
      (s.openStrings text).map (fun r => (r.start.offset, r.stop)) =
        s.found.filterMap Found.openQuote? := by
  intro s
  have own : IsRead text s (Lexeme.cut Lexeme.freeText q 0 s.text) := by
    rw [leads.whole] at read
    have rest := read.behind
    rwa [leads.text, Lexeme.flatMap_text_cut] at rest
  obtain ⟨m, start, tokens, reports⟩ := own.exists_place
  have same : s.found = Found.ofLexemes m.offset (Lexeme.cut Lexeme.freeText q 0 s.text) := by
    have congr := Found.inText_congr s.start leads.same
    rw [Found.ofLexemes_cut q m.offset s.text leads.apart, start]
    exact congr.symm
  refine ⟨own.whole, ?_, ?_⟩
  · rw [tokens, Found.literals_place, same]
  · rw [reports, same]
    exact Found.quotes_place m fun l hl => Found.isTidy_of_mem_cut hl

/-- In each piece of free text, the literals and the quotes that nothing closes are those that are found
by looking for one at each character in turn. -/
theorem literals_found (text : List Char) :
    ∀ s ∈ segments text,
      (∃ back, text = s.before ++ s.text ++ back) ∧
        ((s.tokens text).filter (·.kind.isEmbedded)).map
            (fun t => (t.kind, t.start.offset, t.stop.offset)) = s.found.filterMap Found.literal? ∧
        (s.openStrings text).map (fun r => (r.start.offset, r.stop)) =
          s.found.filterMap Found.openQuote? := by
  intro s hs
  obtain ⟨⟨w, p⟩, line, here⟩ := List.mem_filterMap.mp hs
  obtain ⟨n, free, rfl⟩ := Option.map_eq_some_iff.mp here
  cases w with
  | none =>
    obtain ⟨lead, q, leads⟩ := Lexeme.exists_leads_plain (isNeutral_unpadded line) free
    exact (isRead_plainLine line).found_behind leads
  | some fence =>
    obtain ⟨lead, q, leads⟩ := Lexeme.exists_leads_fenced p.unpadded.before free
    exact (isRead_fencedLine line).found_behind leads

theorem literals_found_step :
    let text := "Given 7 x9 'a' \"b".toList
    let s : Passage := ⟨"Given".toList, " 7 x9 'a' \"b".toList⟩
    s ∈ segments text ∧
      ((s.tokens text).filter (·.kind.isEmbedded)).map
          (fun t => (t.kind, t.start.offset, t.stop.offset)) = [(.decimal, 6, 7), (.string, 11, 14)] ∧
      (s.openStrings text).map (fun r => (r.start.offset, r.stop)) = [(15, 17)] := by
  have mem : ⟨"Given".toList, " 7 x9 'a' \"b".toList⟩ ∈ segments "Given 7 x9 'a' \"b".toList := by
    decide +kernel
  obtain ⟨-, literals, quotes⟩ := literals_found "Given 7 x9 'a' \"b".toList _ mem
  refine ⟨mem, literals.trans ?_, quotes.trans ?_⟩ <;> decide +kernel

end Passage

end FeatureFile
