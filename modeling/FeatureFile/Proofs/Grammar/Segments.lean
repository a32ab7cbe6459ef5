import FeatureFile.Proofs.Document.Lexed
import FeatureFile.Proofs.Grammar.Follow

/-!
The segments of scanned lines are their items, unless text stands behind a closing fence: then the
segment is not clean, and the items spell no word of the grammar.
-/

namespace FeatureFile

open Grammar
open RegularExpression (char star)

namespace TagPart

def nextKind (ts : List Token) : TokenKind :=
  (ts.head?.map Token.kind).getD .eol

lemma isChain_cons_iff (t : Token) (ts : List Token) :
    List.IsChain (fun k next : TokenKind => k = .atSign ↔ next = .text)
      ((t :: ts).map Token.kind ++ [.eol]) ↔
      (t.kind = .atSign ↔ nextKind ts = .text) ∧
        List.IsChain (fun k next : TokenKind => k = .atSign ↔ next = .text)
        (ts.map Token.kind ++ [.eol]) := by
  cases ts <;> simp [nextKind]

lemma any_isFaulty_ofTokens (signed : Bool) {ts : List Token}
    (parts : ∀ t ∈ ts, t.kind = .atSign ∨ t.kind = .text ∨ t.kind.isTrivia) :
    (ofTokens signed ts).any isFaulty = false ↔
      List.IsChain (fun k next : TokenKind => k = .atSign ↔ next = .text)
      (ts.map Token.kind ++ [.eol]) ∧
        (nextKind ts = .text → signed) := by
  induction ts generalizing signed with
  | nil => simp [ofTokens, nextKind]
  | cons t ts ih =>
    obtain ⟨first, others⟩ := List.forall_mem_cons.mp parts
    have next : nextKind (t :: ts) = t.kind := rfl
    rw [isChain_cons_iff, next]
    rcases first with sign | text | trivia
    · have named : (name? ts).isNone = false ↔ nextKind ts = .text := by
        cases ts <;> simp [name?, nextKind]
      rw [ofTokens, if_pos sign, List.any_cons, Bool.or_eq_false_iff, ih true others]
      simp [isFaulty, named, sign]
    · -- Behind a sign the text is its name, elsewhere it is stray.
      cases signed with
      | true =>
        rw [ofTokens, if_neg (by simp [text]), if_pos (by simp [text]), ih false others]
        simp [text, and_comm]
      | false =>
        rw [ofTokens, if_neg (by simp [text]), if_neg (by simp [text, TokenKind.isTrivia])]
        simp [isFaulty, text]
    · have sign : t.kind ≠ .atSign := by
        intro sign
        simp [sign, TokenKind.isTrivia] at trivia
      have text : t.kind ≠ .text := by
        intro text
        simp [text, TokenKind.isTrivia] at trivia
      rw [ofTokens, if_neg sign, if_pos (by simp [trivia]), ih false others]
      simp [sign, text, and_comm]

end TagPart

lemma Line.hasFaultyTags_iff {l : Line} (tags : l.kind = .atSign)
    (shape : Lexeme.PlainShape ((l.head :: l.tail).map Token.kind)) :
    l.hasFaultyTags = false ↔ isCleanTags ((l.head :: l.tail).map Token.kind) := by
  have sign : l.head.kind = .atSign := tags
  have parts : ∀ t ∈ l.head :: l.tail, t.kind = .atSign ∨ t.kind = .text ∨ t.kind.isTrivia := by
    refine List.forall_mem_cons.mpr ⟨.inl sign, fun t ht => ?_⟩
    rw [List.map_cons, sign] at shape
    exact shape.of_atSign _ (List.mem_map_of_mem ht)
  rw [hasFaultyTags, tagParts, TagPart.any_isFaulty_ofTokens false parts, isCleanTags,
    decide_eq_true_iff]
  simp [TagPart.nextKind, sign]

namespace Item

def segment : Item → Segment
  | line l => .ofLine l
  | block b => ⟨.doc, b.closing.isSome⟩

lemma symbol_segment (i : Item) : i.segment.symbol = i.symbol := by
  cases i <;> rfl

structure IsScanned (i : Item) : Prop where
  proper : i.IsProper
  clean : i.IsClean ↔ i.segment.clean

lemma IsScanned.of_plain {l : Line} (shape : Lexeme.PlainShape ((l.head :: l.tail).map Token.kind))
    (other : l.kind ≠ .fence) : (line l).IsScanned := by
  have plain : Lexeme.Shape false ((l.head :: l.tail).map Token.kind) := shape
  refine ⟨⟨other, (plain.inline l.kind (by simp [Line.kind])).2⟩, ?_⟩
  by_cases tags : l.kind = .atSign
  · simpa [IsClean, segment, Segment.ofLine, tags] using Line.hasFaultyTags_iff tags shape
  · simp [IsClean, segment, Segment.ofLine, tags]

lemma IsScanned.of_isFree {l : Line} (free : l.kind.isFree) : (line l).IsScanned := by
  have kind : l.kind ≠ .fence ∧ l.kind ≠ .eof ∧ l.kind ≠ .atSign := by
    refine ⟨?_, ?_, ?_⟩ <;> (intro same; simp [same, TokenKind.isFree, TokenKind.isPad,
      TokenKind.isLiteral] at free)
  exact ⟨⟨kind.1, kind.2.1⟩, by simp [IsClean, segment, Segment.ofLine, kind.2.2]⟩

lemma behindFence_of_all {more : List Token} (ending : Option Token) (h : more.all (·.kind.isPad)) :
    behindFence more ending = [] := by
  have none : more.dropWhile (·.kind.isPad) = [] := by simpa [List.dropWhile_eq_nil_iff] using h
  rw [behindFence, none]

lemma behindFence_of_not_all {more : List Token} (ending : Option Token)
    (h : more.all (·.kind.isPad) = false) :
    ∃ l, behindFence more ending = [line l] ∧ l.head ∈ more := by
  cases kept : more.dropWhile (·.kind.isPad) with
  | nil =>
    rw [List.dropWhile_eq_nil_iff, ← List.all_eq_true, h] at kept
    cases kept
  | cons t rest =>
    have mem : t ∈ more := (List.dropWhile_suffix _).subset (kept ▸ List.mem_cons_self)
    exact ⟨⟨t, rest, ending⟩, by rw [behindFence, kept], mem⟩

theorem isScanned_ofLines (opened : Option (Line × List Token)) {ls : List RawLine}
    (scanned : Scanned opened.isSome ls) (fence : ∀ o ∈ opened, o.1.kind = .fence) :
    ∀ i ∈ ofLines opened ls, i.IsScanned := by
  fun_induction ofLines opened ls with
  | case1 => simp
  | case2 opening content =>
    have proper : (block ⟨opening, content, none⟩).IsProper := fence _ rfl
    simpa using IsScanned.mk proper (by simp [IsClean, segment])
  | case3 l rest blank ih =>
    exact ih (scanned.rest_of_stays (RawLine.turns_of_significant?_none blank)) fence
  | case4 l rest found here opens ih =>
    exact ih (scanned.rest_of_turns ((scanned.turns_iff here).mpr opens)) (by simpa using opens)
  | case5 l rest found here other ih =>
    have plain : Lexeme.PlainShape ((found.head :: found.tail).map Token.kind) :=
      RawLine.body_of_significant? scanned.shape here ▸ scanned.shape
    have below := scanned.rest_of_stays (scanned.stays here other)
    exact List.forall_mem_cons.mpr ⟨.of_plain plain other, ih below fence⟩
  | case6 opening content l rest stays ih =>
    exact ih (scanned.rest_of_stays (RawLine.turns_of_closing?_none stays)) (by simpa using fence)
  | case7 opening content l rest indent closing more here ih =>
    have below := scanned.rest_of_turns (RawLine.turns_of_closing? here)
    have proper : (block ⟨opening, content, some (indent, closing)⟩).IsProper := fence _ rfl
    refine List.forall_mem_cons.mpr ⟨⟨proper, by simp [IsClean, segment]⟩, ?_⟩
    refine List.forall_mem_append.mpr ⟨?_, ih below (by simp)⟩
    cases pads : more.all (·.kind.isPad) with
    | true => simp [behindFence_of_all _ pads]
    | false =>
      obtain ⟨t, behind, mem⟩ := behindFence_of_not_all l.ending pads
      simpa [behind] using IsScanned.of_isFree (isFree_of_closing? scanned.shape here _ mem)

def IsQuiet (items : List Item) : Prop :=
  List.IsChain (fun a b : Symbol => a = .doc → b ≠ .prose) (items.map symbol)

lemma IsQuiet.tail {i : Item} {items : List Item} (h : IsQuiet (i :: items)) : IsQuiet items :=
  List.IsChain.of_cons h

theorem map_segment_ofLines (opened : Option (Line × List Token)) {ls : List RawLine}
    (scanned : Scanned opened.isSome ls)
    (quiet : (∀ g ∈ segments opened.isSome ls, g.clean) ∨ IsQuiet (ofLines opened ls)) :
    (ofLines opened ls).map segment = segments opened.isSome ls := by
  fun_induction ofLines opened ls with
  | case1 => rfl
  | case2 opening content => rfl
  | case3 l rest blank ih =>
    have below := scanned.rest_of_stays (RawLine.turns_of_significant?_none blank)
    have skipped : segments false (l :: rest) = segments false rest := by rw [segments, blank]
    rw [Option.isSome_none, skipped] at quiet ⊢
    exact ih below quiet
  | case4 l rest found here opens ih =>
    have below := scanned.rest_of_turns ((scanned.turns_iff here).mpr opens)
    have opened : segments false (l :: rest) = segments true rest := by simp [segments, here, opens]
    rw [Option.isSome_none, opened] at quiet ⊢
    exact ih below quiet
  | case5 l rest found here other ih =>
    have below := scanned.rest_of_stays (scanned.stays here other)
    have cut : segments false (l :: rest) = .ofLine found :: segments false rest := by
      simp [segments, here, other]
    rw [Option.isSome_none, cut] at quiet ⊢
    refine congrArg (.ofLine found :: ·) (ih below ?_)
    exact quiet.imp (fun all => (List.forall_mem_cons.mp all).2) IsQuiet.tail
  | case6 opening content l rest stays ih =>
    have below := scanned.rest_of_stays (RawLine.turns_of_closing?_none stays)
    have inner : segments true (l :: rest) = segments true rest := by rw [segments, stays]
    rw [Option.isSome_some, inner] at quiet ⊢
    exact ih below quiet
  | case7 opening content l rest indent closing more here ih =>
    have below := scanned.rest_of_turns (RawLine.turns_of_closing? here)
    have cut : segments true (l :: rest) =
        ⟨.doc, more.all (·.kind.isPad)⟩ :: segments false rest := by
      rw [segments, here]
    have pads : more.all (·.kind.isPad) := by
      rcases quiet with all | quiet
      · rw [Option.isSome_some, cut] at all
        exact (List.forall_mem_cons.mp all).1
      · -- What stands behind the fence would be an item of free text right behind the doc string.
        by_contra text
        obtain ⟨t, behind, mem⟩ := behindFence_of_not_all l.ending (Bool.eq_false_iff.mpr text)
        have prose := Symbol.ofKind_of_isFree (isFree_of_closing? scanned.shape here _ mem)
        rw [behind] at quiet
        exact (List.isChain_cons_cons.mp quiet).1 rfl prose
    rw [behindFence_of_all _ pads] at quiet ⊢
    rw [Option.isSome_some, cut] at quiet ⊢
    simp only [List.map_cons, List.nil_append, segment, pads]
    refine congrArg (_ :: ·) (ih below ?_)
    exact quiet.imp (fun all => (List.forall_mem_cons.mp all).2) IsQuiet.tail

end Item

end FeatureFile
