import FeatureFile.Proofs.Descent.Lines
import FeatureFile.Proofs.Document.Lexed

namespace FeatureFile

open Ahead (current)

/-- Tokens that a list of items is read from. Layout and comments in front of them make no
difference; behind them is the end of input. -/
inductive Holds (eof : Token) : List Token → List Item → Prop
  | done {left : List Token} :
      eof.kind = .eof → left.dropWhile (·.kind.isTrivia) = [eof] → Holds eof left []
  | line {left more : List Token} {l : Line} {items : List Item} :
      left.dropWhile (·.kind.isTrivia) = l.tokens ++ more → l.IsLexed → l.kind ≠ .fence →
      (l.ending = none → current more = .eof) →
      Holds eof more items → Holds eof left (.line l :: items)
  | block {left more : List Token} {b : Block} {items : List Item} :
      left.dropWhile (·.kind.isTrivia) = b.tokens ++ more → b.IsLexed →
      (b.opening.ending = none → b.content = [] ∧ b.closing = none) →
      (b.closing ≠ none → ∀ t ∈ b.content.getLast?, t.kind = .eol) →
      (b.closing = none → current more = .eof) →
      Holds eof more items → Holds eof left (.block b :: items)

namespace Holds

variable {eof : Token} {left front : List Token} {items : List Item}

lemma of_dropWhile {other : List Token}
    (same : left.dropWhile (·.kind.isTrivia) = other.dropWhile (·.kind.isTrivia))
    (h : Holds eof other items) : Holds eof left items := by
  cases h with
  | done last whole => exact .done last (same.trans whole)
  | line whole lexed plain ends below => exact .line (same.trans whole) lexed plain ends below
  | block whole lexed opening content ends below =>
    exact .block (same.trans whole) lexed opening content ends below

lemma dropWhile (h : Holds eof left items) : Holds eof (left.dropWhile (·.kind.isTrivia)) items :=
  h.of_dropWhile (List.dropWhile_idempotent _ _)

lemma append (trivia : ∀ t ∈ front, t.kind.isTrivia) (h : Holds eof left items) :
    Holds eof (front ++ left) items :=
  h.of_dropWhile (List.dropWhile_append_of_pos trivia)

lemma of_append (trivia : ∀ t ∈ front, t.kind.isTrivia) (h : Holds eof (front ++ left) items) :
    Holds eof left items :=
  h.of_dropWhile (List.dropWhile_append_of_pos trivia).symm

end Holds

namespace RawLine

variable {l : RawLine} {found : Line} (more : List Token)

lemma isChain_ofTokens (ts : List Token) :
    (ofTokens ts).IsChain fun l _ => l.ending ≠ none := by
  induction ts with
  | nil => exact .nil
  | cons t ts ih =>
    rw [ofTokens]
    split
    · exact List.isChain_cons.mpr ⟨fun _ _ => by simp, ih⟩
    · cases lines : ofTokens ts with
      | nil => exact .singleton _
      | cons l ls =>
        rw [lines] at ih
        exact List.isChain_cons.mpr (List.isChain_cons.mp ih)

lemma eq_nil_of_isChain {rest : List RawLine}
    (chain : (l :: rest).IsChain fun l _ => l.ending ≠ none) (ends : l.ending = none) :
    rest = [] := by
  cases rest with
  | nil => rfl
  | cons m rest => exact absurd ends ((List.isChain_cons.mp chain).1 m rfl)

lemma dropWhile_tokens (here : l.significant? = some found) :
    (l.tokens ++ more).dropWhile (·.kind.isTrivia) = found.tokens ++ more := by
  rw [tokens, List.append_assoc, List.dropWhile_append, Line.dropWhile_of_significant? here,
    Line.tokens, Line.ending_of_significant? here]
  simp

lemma isTrivia_of_blank (closed : l.IsClosed) (blank : l.significant? = none) :
    ∀ t ∈ l.tokens, t.kind.isTrivia := by
  have kept := (keeps_of_significant?_none closed blank).significant
  simpa [List.filter_eq_nil_iff] using kept.symm

lemma getLast?_append_tokens {eol : Token} (ends : l.ending = some eol) :
    (more ++ l.tokens).getLast? = some eol := by
  simp [tokens, ends]

end RawLine

namespace Item

variable {eof : Token}

lemma holds_behindFence {more ts : List Token} {ending : Option Token} {items : List Item}
    (free : ∀ t ∈ more, t.kind.isFree) (closed : ∀ t ∈ ending, t.kind = .eol)
    (last : ending = none → current ts = .eof) (below : Holds eof ts items) :
    Holds eof (more ++ (ending.toList ++ ts)) (behindFence more ending ++ items) := by
  have lexed := isLexed_behindFence free closed
  have pads : ∀ t ∈ more.takeWhile (·.kind.isPad), t.kind.isTrivia := fun t ht =>
    TokenKind.isTrivia_of_isPad (List.mem_takeWhile_imp (p := fun t : Token => t.kind.isPad) ht)
  have cut : more = more.takeWhile (·.kind.isPad) ++ more.dropWhile (·.kind.isPad) :=
    List.takeWhile_append_dropWhile.symm
  rw [cut, List.append_assoc, ← cut]
  refine Holds.append pads ?_
  rw [behindFence] at lexed ⊢
  split at lexed
  next none =>
    rw [none, List.nil_append, List.nil_append]
    refine below.append fun t ht => ?_
    rw [closed t (by simpa using ht)]
    rfl
  next t rest kept =>
    obtain ⟨line, plain⟩ := List.forall_mem_singleton.mp lexed
    rw [kept]
    have first : t.kind.isTrivia = false := line.content
    refine .line ?_ line plain last below
    simp [first, Line.tokens]

structure IsOpenAbove (opened : Line × List Token) (ls : List RawLine) : Prop
    extends IsOpened opened where
  ending : opened.1.ending = none → opened.2 = [] ∧ ls = []
  whole : ls ≠ [] → ∀ t ∈ opened.2.getLast?, t.kind = .eol

namespace IsOpenAbove

variable {opening : Line} {content : List Token} {l : RawLine} {rest : List RawLine}

lemma isTrivia (h : IsOpenAbove (opening, content) rest) : opening.head.kind.isTrivia = false := by
  rw [show opening.head.kind = .fence from h.fence]
  rfl

lemma append (h : IsOpenAbove (opening, content) (l :: rest)) (scanned : Scanned true (l :: rest))
    (chain : (l :: rest).IsChain fun l _ => l.ending ≠ none) (inner : closing? l = none) :
    IsOpenAbove (opening, content ++ l.tokens) rest where
  opening := h.opening
  fence := h.fence
  content := List.forall_mem_append.mpr
    ⟨h.content, isVerbatim_of_closing?_none scanned.isClosed scanned.shape inner⟩
  ending ends := absurd (h.ending ends).2 (List.cons_ne_nil l rest)
  whole more t ht := by
    obtain ⟨eol, ends⟩ :=
      Option.ne_none_iff_exists'.mp (mt (RawLine.eq_nil_of_isChain chain) more)
    rw [RawLine.getLast?_append_tokens content ends] at ht
    exact Option.some.inj ht ▸ scanned.isClosed.ending eol ends

lemma holds_open (h : IsOpenAbove (opening, content) []) (last : eof.kind = .eof) :
    Holds eof (opening.tokens ++ content ++ [eof]) [block ⟨opening, content, none⟩] := by
  have final : eof.kind.isTrivia = false := by
    rw [last]
    rfl
  have ending : current [eof] = .eof := last
  refine .block ?_ ⟨h.opening, h.fence, h.content, by simp⟩
    (fun ends => ⟨(h.ending ends).1, rfl⟩) (fun closed => absurd rfl closed)
    (fun _ => ending) (.done last (List.dropWhile_cons_of_neg (by simp [final])))
  simp [Block.tokens, Line.tokens, h.isTrivia]

lemma holds_closed (h : IsOpenAbove (opening, content) (l :: rest)) {indent more ts : List Token}
    {fence : Token} (here : closing? l = some (indent, fence, more)) {items : List Item}
    (behind : Holds eof ts items) :
    Holds eof (opening.tokens ++ content ++ (indent ++ fence :: ts))
      (block ⟨opening, content, some (indent, fence)⟩ :: items) := by
  refine .block ?_ ⟨h.opening, h.fence, h.content, ?_⟩
    (fun ends => absurd (h.ending ends).2 (List.cons_ne_nil l rest))
    (fun _ => h.whole (List.cons_ne_nil l rest)) (by simp) behind
  · simp [Block.tokens, Line.tokens, h.isTrivia]
  · simpa using ⟨isPad_of_closing? here, (closing?_eq_some here).2.1⟩

end IsOpenAbove

theorem holds_ofLines (last : eof.kind = .eof) (opened : Option (Line × List Token))
    {ls : List RawLine} (scanned : Scanned opened.isSome ls)
    (chain : ls.IsChain fun l _ => l.ending ≠ none) (open? : ∀ o ∈ opened, IsOpenAbove o ls) :
    Holds eof (openTokens opened ++ (ls.flatMap RawLine.tokens ++ [eof])) (ofLines opened ls) := by
  have below {l : RawLine} {rest : List RawLine}
      (chain : (l :: rest).IsChain fun l _ => l.ending ≠ none) (ends : l.ending = none) :
      current (rest.flatMap RawLine.tokens ++ [eof]) = .eof := by
    rw [RawLine.eq_nil_of_isChain chain ends]
    exact last
  fun_induction ofLines opened ls with
  | case1 => exact .done last (by simp [openTokens, last, TokenKind.isTrivia])
  | case2 opening content => exact (open? _ rfl).holds_open last
  | case3 l rest blank ih =>
    have stays := RawLine.turns_of_significant?_none blank
    have items := ih (scanned.rest_of_stays stays) (List.isChain_cons.mp chain).2 (by simp)
    simp only [openTokens, List.nil_append, List.flatMap_cons, List.append_assoc] at items ⊢
    exact items.append (RawLine.isTrivia_of_blank scanned.isClosed blank)
  | case4 l rest found here fence ih =>
    have lexed := Line.isLexed_of_significant? scanned.isClosed scanned.shape here
    have opens : IsOpenAbove (found, []) rest :=
      { opening := lexed, fence := fence, content := by simp,
        ending := fun ends =>
          ⟨rfl, RawLine.eq_nil_of_isChain chain (Line.ending_of_significant? here ▸ ends)⟩,
        whole := by simp }
    have items := ih (scanned.rest_of_turns ((scanned.turns_iff here).mpr fence))
      (List.isChain_cons.mp chain).2 (by simpa using opens)
    refine items.of_dropWhile ?_
    simp only [openTokens, List.nil_append, List.append_nil, List.flatMap_cons, List.append_assoc]
    rw [RawLine.dropWhile_tokens _ here]
    simp [Line.tokens, opens.isTrivia]
  | case5 l rest found here other ih =>
    have lexed := Line.isLexed_of_significant? scanned.isClosed scanned.shape here
    have items := ih (scanned.rest_of_stays (scanned.stays here other))
      (List.isChain_cons.mp chain).2 (by simp)
    refine .line ?_ lexed other
      (fun ends => below chain (Line.ending_of_significant? here ▸ ends)) items
    simp only [openTokens, List.nil_append, List.flatMap_cons, List.append_assoc]
    exact RawLine.dropWhile_tokens _ here
  | case6 opening content l rest inner ih =>
    have items := ih (scanned.rest_of_stays (RawLine.turns_of_closing?_none inner))
      (List.isChain_cons.mp chain).2 (by simpa using (open? _ rfl).append scanned chain inner)
    simpa [openTokens] using items
  | case7 opening content l rest indent fence more here ih =>
    have items := ih (scanned.rest_of_turns (RawLine.turns_of_closing? here))
      (List.isChain_cons.mp chain).2 (by simp)
    have free := isFree_of_closing? scanned.shape here
    have behind := holds_behindFence free scanned.isClosed.ending (below chain) items
    have whole := (open? _ rfl).holds_closed here behind
    simpa [openTokens, RawLine.tokens, (closing?_eq_some here).1] using whole

end Item

end FeatureFile
