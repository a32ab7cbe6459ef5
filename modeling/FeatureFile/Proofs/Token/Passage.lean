import FeatureFile.Proofs.LineForms
import FeatureFile.Proofs.Positions

namespace FeatureFile

open Text (SourceLine byteLength)

def Text.markOf (text : List Char) : List Char :=
  if text.head? = some byteOrderMark then [byteOrderMark] else []

structure Passage where
  before : List Char
  text : List Char
  deriving DecidableEq

namespace Passage

def start (p : Passage) : Nat :=
  byteLength p.before

def stop (p : Passage) : Nat :=
  p.start + byteLength p.text

def holds (p : Passage) (m : Mark) : Bool :=
  p.start ≤ m.offset && m.offset < p.stop

def tokens (p : Passage) (text : List Char) : List Token :=
  (Stream.ofText text).tokens.filter (p.holds ·.start)

def openStrings (p : Passage) (text : List Char) : List LexicalReport :=
  (Stream.ofText text).reports.filter fun r => p.holds r.start && r.fault = .openString

def behind (p : Passage) (n : Nat) : Passage :=
  ⟨p.before ++ p.text.take n, p.text.drop n⟩

def unpadded (p : Passage) : Passage :=
  ⟨p.before ++ p.text.takeWhile Text.isPad, p.text.dropWhile Text.isPad⟩

def linesFrom : Option Fence → List Char → List SourceLine → List (Option Fence × Passage)
  | _, _, [] => []
  | within, before, l :: rest =>
    (within, ⟨before, l.content⟩) ::
      linesFrom (Fence.behind within (l.content.dropWhile Text.isPad)) (before ++ l.text) rest

/-- The lines of a text without their ends, each with the doc string that is open in front of it. -/
def lines (text : List Char) : List (Option Fence × Passage) :=
  linesFrom none (Text.markOf text) (Text.lines (Text.stripMark text))

end Passage

lemma Text.markOf_append_stripMark (text : List Char) : markOf text ++ stripMark text = text := by
  cases text with
  | nil => rfl
  | cons c rest => by_cases h : c = byteOrderMark <;> simp [markOf, stripMark, h]

lemma Stream.offset_origin_eq (text : List Char) :
    (origin text).offset = byteLength (Text.markOf text) := by
  rw [offset_origin, Text.markOf]
  split <;> rfl

structure Passage.IsRead (text : List Char) (p : Passage) (ls : List Lexeme) : Prop where
  split : ∃ front back, Lexeme.ofText (Text.stripMark text) = front ++ (ls ++ back) ∧
    p.before = Text.markOf text ++ front.flatMap Lexeme.text
  text : p.text = ls.flatMap Lexeme.text

structure Passage.IsReadAt (text : List Char) (p : Passage) (m : Mark) (ls : List Lexeme) : Prop where
  split : ∃ front back, Lexeme.ofText (Text.stripMark text) = front ++ (ls ++ back) ∧
    p.before = Text.markOf text ++ front.flatMap Lexeme.text ∧
    m = Token.placeEnd (Stream.origin text) front
  text : p.text = ls.flatMap Lexeme.text

namespace Token

lemma start_of_mem_place {m : Mark} {ls : List Lexeme} {t : Token} (some : ∀ l ∈ ls, l.text ≠ [])
    (h : t ∈ place m ls) : m.offset ≤ t.start.offset ∧ t.start.offset < (placeEnd m ls).offset := by
  obtain ⟨front, l, back, rfl, rfl⟩ := exists_of_mem_place h
  have positive := Text.byteLength_pos (some l (by simp))
  rw [offset_placeEnd, offset_placeEnd, List.flatMap_append, List.flatMap_cons,
    Text.byteLength_append, Text.byteLength_append]
  omega

end Token

namespace Stream

variable {text : List Char} {front ls back : List Lexeme}

lemma tokens_eq (whole : Lexeme.ofText (Text.stripMark text) = front ++ (ls ++ back)) :
    let m := Token.placeEnd (origin text) front
    let n := Token.placeEnd m ls
    (ofText text).tokens = Token.place (origin text) front ++
      (Token.place m ls ++ (Token.place n back ++ [⟨.eof, [], Token.placeEnd n back⟩])) := by
  simp only [tokens_ofText, whole, Token.place_append, Token.placeEnd_append, List.append_assoc]

lemma quotes_eq (whole : Lexeme.ofText (Text.stripMark text) = front ++ (ls ++ back)) :
    let m := Token.placeEnd (origin text) front
    let n := Token.placeEnd m ls
    (ofText text).reports.filter (·.fault = .openString) =
      ScanNote.quoteReports (origin text) front ++
        (ScanNote.quoteReports m ls ++ ScanNote.quoteReports n back) := by
  have all : ∀ r ∈ quotes text, (decide (r.fault = .openString)) :=
    fun r hr => decide_eq_true (ScanNote.fault_of_mem_quoteReports hr)
  have none : (ofText text).openDocString.toList.filter (·.fault = .openString) = [] := by
    rw [openDocString_ofText]
    cases openFence (ofText text).content <;> rfl
  rw [reports_eq, List.filter_append, none, List.append_nil, List.filter_eq_self.mpr all, quotes, whole,
    ScanNote.quoteReports_append, ScanNote.quoteReports_append]

end Stream

namespace Passage

variable {text : List Char} {p : Passage} {ls more : List Lexeme}

lemma IsRead.whole (h : IsRead text p ls) : ∃ back, text = p.before ++ p.text ++ back := by
  obtain ⟨front, back, whole, before⟩ := h.split
  refine ⟨back.flatMap Lexeme.text, ?_⟩
  have body := Lexeme.flatMap_text_ofText (Text.stripMark text)
  rw [before, h.text, List.append_assoc, List.append_assoc, ← List.flatMap_append,
    ← List.flatMap_append, ← whole, body, Text.markOf_append_stripMark]

lemma IsRead.exists_at (h : IsRead text p ls) : ∃ m, IsReadAt text p m ls := by
  obtain ⟨front, back, whole, before⟩ := h.split
  exact ⟨_, ⟨front, back, whole, before, rfl⟩, h.text⟩

namespace IsReadAt

variable {m : Mark}

lemma isRead (h : IsReadAt text p m ls) : IsRead text p ls := by
  obtain ⟨front, back, whole, before, -⟩ := h.split
  exact ⟨⟨front, back, whole, before⟩, h.text⟩

lemma start (h : IsReadAt text p m ls) : m.offset = p.start := by
  obtain ⟨front, back, -, before, rfl⟩ := h.split
  rw [Token.offset_placeEnd, Stream.offset_origin_eq, Passage.start, before, Text.byteLength_append]

lemma front (h : IsReadAt text p m (ls ++ more)) :
    IsReadAt text ⟨p.before, ls.flatMap Lexeme.text⟩ m ls := by
  obtain ⟨front, back, whole, place⟩ := h.split
  exact ⟨⟨front, more ++ back, by rw [whole, List.append_assoc], place⟩, rfl⟩

lemma behind (h : IsReadAt text p m (ls ++ more)) :
    IsReadAt text ⟨p.before ++ ls.flatMap Lexeme.text, more.flatMap Lexeme.text⟩
      (Token.placeEnd m ls) more := by
  obtain ⟨front, back, whole, before, rfl⟩ := h.split
  refine ⟨⟨front ++ ls, back, ?_, ?_, (Token.placeEnd_append _ _ _).symm⟩, rfl⟩
  · rw [whole, List.append_assoc, List.append_assoc]
  · rw [before, List.flatMap_append, List.append_assoc]

end IsReadAt

lemma IsRead.behind (h : IsRead text p (ls ++ more)) :
    IsRead text ⟨p.before ++ ls.flatMap Lexeme.text, more.flatMap Lexeme.text⟩ more := by
  obtain ⟨m, here⟩ := h.exists_at
  exact here.behind.isRead

lemma filter_holds {α : Type} {place : α → Mark} {front own back : List α}
    (before : ∀ a ∈ front, (place a).offset < p.start)
    (inside : ∀ a ∈ own, p.start ≤ (place a).offset ∧ (place a).offset < p.stop)
    (after : ∀ a ∈ back, p.stop ≤ (place a).offset) :
    (front ++ (own ++ back)).filter (fun a => p.holds (place a)) = own := by
  have none : ∀ a ∈ front, ¬ p.holds (place a) := fun a ha => by simp [holds, before a ha]
  have all : ∀ a ∈ own, p.holds (place a) := fun a ha => by simp [holds, inside a ha]
  have rest : ∀ a ∈ back, ¬ p.holds (place a) :=
    fun a ha => by simp [holds, Nat.not_lt.mpr (after a ha)]
  rw [List.filter_append, List.filter_append, List.filter_eq_nil_iff.mpr none,
    List.filter_eq_self.mpr all, List.filter_eq_nil_iff.mpr rest, List.nil_append, List.append_nil]

lemma IsReadAt.place_eq {m : Mark} (h : IsReadAt text p m ls) :
    p.tokens text = Token.place m ls ∧ p.openStrings text = ScanNote.quoteReports m ls := by
  have start := h.start
  obtain ⟨front, back, whole, -, rfl⟩ := h.split
  let m := Token.placeEnd (Stream.origin text) front
  let n := Token.placeEnd m ls
  have stop : n.offset = p.stop := by
    rw [Token.offset_placeEnd, start, Passage.stop, h.text]
  have some : ∀ l ∈ front ++ (ls ++ back), l.text ≠ [] :=
    fun l hl => Lexeme.text_ne_nil_of_mem_ofText (whole ▸ hl)
  obtain ⟨inFront, rest⟩ := List.forall_mem_append.mp some
  obtain ⟨own, inBack⟩ := List.forall_mem_append.mp rest
  constructor
  · rw [tokens, Stream.tokens_eq whole]
    refine filter_holds (fun t ht => ?_) (fun t ht => ?_) fun t ht => ?_
    · exact start ▸ (Token.start_of_mem_place inFront ht).2
    · exact start ▸ stop ▸ Token.start_of_mem_place own ht
    · rcases List.mem_append.mp ht with ht | ht
      · exact stop ▸ (Token.start_of_mem_place inBack ht).1
      · obtain rfl := List.mem_singleton.mp ht
        exact stop ▸ Token.offset_placeEnd n back ▸ Nat.le_add_right _ _
  · rw [openStrings, ← List.filter_filter, Stream.quotes_eq whole]
    refine filter_holds (fun r hr => ?_) (fun r hr => ?_) fun r hr => ?_
    · exact start ▸ (ScanNote.offset_of_mem_quoteReports inFront hr).2
    · exact start ▸ stop ▸ ScanNote.offset_of_mem_quoteReports own hr
    · exact stop ▸ (ScanNote.offset_of_mem_quoteReports inBack hr).1

lemma IsRead.exists_place (h : IsRead text p ls) :
    ∃ m : Mark, m.offset = p.start ∧ p.tokens text = Token.place m ls ∧
      p.openStrings text = ScanNote.quoteReports m ls := by
  obtain ⟨m, here⟩ := h.exists_at
  exact ⟨m, here.start, here.place_eq⟩

lemma mem_linesFrom {within w : Option Fence} {before : List Char} {ls : List SourceLine}
    (h : (w, p) ∈ linesFrom within before ls) :
    ∃ front back, Lexeme.ofLines within ls = front ++ (Lexeme.ofContent w p.text ++ back) ∧
      p.before = before ++ front.flatMap Lexeme.text := by
  induction ls generalizing within before with
  | nil => cases h
  | cons l ls ih =>
    rw [Lexeme.ofLines, List.append_assoc]
    rcases List.mem_cons.mp h with here | h
    · obtain ⟨rfl, rfl⟩ := Prod.mk.inj here
      exact ⟨[], _, rfl, by simp⟩
    · obtain ⟨front, back, whole, start⟩ := ih h
      refine ⟨Lexeme.ofContent within l.content ++ Lexeme.ofEnding l.ending ++ front, back, ?_, ?_⟩
      · rw [whole]
        simp
      · rw [start, List.flatMap_append, List.flatMap_append, Lexeme.flatMap_text_ofContent,
          Lexeme.flatMap_text_ofEnding, Text.SourceLine.text, List.append_assoc]

lemma isRead_of_mem_lines {w : Option Fence} (h : (w, p) ∈ lines text) :
    IsRead text p (Lexeme.ofContent w p.text) := by
  obtain ⟨front, back, whole, before⟩ := mem_linesFrom h
  exact ⟨⟨front, back, whole, before⟩, (Lexeme.flatMap_text_ofContent w p.text).symm⟩

lemma isRead_plainLine (h : (none, p) ∈ lines text) :
    IsRead text p.unpadded (Lexeme.plainLine p.unpadded.text) := by
  have rest := (isRead_of_mem_lines h).behind
  rw [Lexeme.flatMap_text_pads, Lexeme.flatMap_text_plainLine] at rest
  exact rest

lemma isRead_fencedLine {fence : Fence} (h : (some fence, p) ∈ lines text) :
    IsRead text p.unpadded (Lexeme.fencedLine fence p.unpadded.text) := by
  have rest := (isRead_of_mem_lines h).behind
  rw [Lexeme.flatMap_text_pads, Lexeme.flatMap_text_fencedLine] at rest
  exact rest

end Passage

end FeatureFile
