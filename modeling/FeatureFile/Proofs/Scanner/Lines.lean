import FeatureFile.Proofs.Scanner.Lexemes
import FeatureFile.Proofs.Scanner.Lookahead

/-!
The scanner goes through a text line by line. On each line it follows the rule for such a line, and
comes to its end in the mode that the line leaves.
-/

namespace FeatureFile

open Text (isBreak isPad)

def Mode.fence? : Mode → Option Fence
  | plain => none
  | docString fence _ => some fence

namespace Lexeme

lemma runLength_le_length (previous : Char) (text : List Char) :
    runLength previous text ≤ text.length := by
  induction text generalizing previous with
  | nil => exact Nat.le_refl _
  | cons c text ih =>
    rw [runLength]
    split
    · exact Nat.zero_le _
    · exact Nat.succ_le_succ (ih c)

lemma length_untilBar_le (escaped : Bool) (text : List Char) :
    (untilBar escaped text).length ≤ text.length := by
  induction text generalizing escaped with
  | nil => exact Nat.le_refl _
  | cons c text ih =>
    rw [untilBar]
    split
    · exact Nat.zero_le _
    · exact Nat.succ_le_succ (ih _)

lemma length_dropEnd_le (p : Char → Bool) (text : List Char) :
    (Text.dropEnd p text).length ≤ text.length := by
  obtain ⟨gone, whole, -⟩ := Text.dropEnd_append p text
  have length := congrArg List.length whole
  rw [List.length_append] at length
  omega

lemma cut_freeText_of_isPad {c : Char} (pad : isPad c) (previous : Option Char) (rest : List Char) :
    cut freeText previous 0 (c :: rest) = cut freeText none 0 (c :: rest) := by
  simp [cut, freeText, pad]

lemma isWordStart_of_isPad {c : Char} (pad : isPad c) : isWordStart (some c) := by
  rcases Text.isPad_iff.mp pad with rfl | rfl <;> decide +kernel

lemma isWordStart_of_isBreak {c : Char} (stop : isBreak c) : isWordStart (some c) := by
  rcases Text.isBreak_iff.mp stop with rfl | rfl <;> decide +kernel

lemma tagLine_of_nameless {c : Char} (nameless : isTagChar c = false) (rest : List Char) :
    tagLine true c rest = tagLine false c rest := by
  simp [tagLine, nameless]

end Lexeme

structure Cut.TakesAs {σ τ : Type} (w : Cut σ) (v : Cut τ) (rest : List Char) : Prop where
  kind : w.kind = v.kind
  more : w.more = v.more
  openQuote : w.openQuote = v.openQuote
  bound : v.more ≤ rest.length

namespace Scanner

variable {s : Scanner} {c : Char} {rest tail : List Char}

lemma lexemes_append_of_length (s : Scanner) (rest tail : List Char) :
    s.lexemes rest.length (rest ++ tail) = s.lexemes 0 tail := by
  rw [lexemes, Lexeme.cut_eq_cut_drop, List.drop_left]
  rfl

lemma lexemes_cons (s : Scanner) (c : Char) (rest : List Char) :
    s.lexemes 0 (c :: rest) =
      Lexeme.ofCut (s.look c rest) c rest :: (s.step c rest).next.lexemes (s.look c rest).more rest :=
  rfl

lemma lexemes_of_look {shown : Shown} (same : s.look c rest = { s with shown := shown }.look c rest) :
    s.lexemes 0 (c :: rest) = { s with shown := shown }.lexemes 0 (c :: rest) := by
  have step : s.step c rest = { s with shown := shown }.step c rest := by
    rw [step, step, same]
  rw [lexemes, lexemes, Lexeme.cut, Lexeme.cut, step]

lemma breakMore?_of_inline (inline : isBreak c = false) (rest : List Char) :
    breakMore? c rest = none := by
  simp only [isBreak, Bool.or_eq_false_iff, decide_eq_false_iff_not] at inline
  rw [breakMore?, if_neg inline.1, if_neg inline.2]

lemma look_of_pad (pad : isPad c) :
    s.look c rest = ⟨Lexeme.padKind c, 0, (s.mode, s.shown.behindPad), none⟩ := by
  rw [look, breakMore?_of_inline (Text.isBreak_of_isPad pad)]
  exact if_pos pad

lemma look_of_plain (inline : isBreak c = false) (word : isPad c = false) (plain : s.mode = .plain) :
    s.look c rest = s.plain c rest := by
  rw [look, breakMore?_of_inline inline]
  simp only [word, plain, Bool.false_eq_true, if_false]

lemma look_of_inside (inline : isBreak c = false) (word : isPad c = false) {fence : Fence}
    {opened : Mark} (inside : s.mode = .docString fence opened) :
    s.look c rest = s.docString c rest fence := by
  rw [look, breakMore?_of_inline inline]
  simp only [word, inside, Bool.false_eq_true, if_false]

lemma plain_of_name (shown : s.shown = .sign) (name : Lexeme.isTagChar c) :
    s.plain c rest = ⟨.text, (rest.takeWhile Lexeme.isTagChar).length, (s.mode, .tags), none⟩ := by
  rw [plain, shown]
  exact if_pos name

lemma plain_of_nameless (shown : s.shown = .sign) (nameless : Lexeme.isTagChar c = false) :
    s.plain c rest = { s with shown := .tags }.tagLine c rest := by
  rw [plain, shown]
  exact if_neg (by simp [nameless])

/-- In the states that `R` relates the scanner takes what a rule for lines takes, and it goes on in
such a state, unless the line is at its end. -/
structure Follows {σ : Type} (rule : σ → Char → List Char → Cut σ) (R : σ → Scanner → Prop)
    (tail : List Char) : Prop where
  takes {x : σ} {s : Scanner} {c : Char} {rest : List Char} : R x s →
    (∀ d ∈ c :: rest, isBreak d = false) →
      (s.look c (rest ++ tail)).TakesAs (rule x c rest) rest
  mode {x : σ} {s : Scanner} {c : Char} {rest : List Char} : R x s →
    (∀ d ∈ c :: rest, isBreak d = false) → (s.look c (rest ++ tail)).next.1 = s.mode
  next {x : σ} {s : Scanner} {c : Char} {rest : List Char} : R x s →
    (∀ d ∈ c :: rest, isBreak d = false) →
      R (rule x c rest).next (s.step c (rest ++ tail)).next ∨ rest.length ≤ (rule x c rest).more

lemma Follows.of_looks {rule : Unit → Char → List Char → Cut Unit} {mode : Mode} {shown : Shown}
    (looks : ∀ {s : Scanner} {c : Char} {rest : List Char}, s.mode = mode → s.shown = shown →
      (∀ d ∈ c :: rest, isBreak d = false) →
        (s.look c (rest ++ tail)).TakesAs (rule () c rest) rest ∧
          (s.look c (rest ++ tail)).next = (mode, shown)) :
    Follows rule (fun _ s => s.mode = mode ∧ s.shown = shown) tail where
  takes related inline := (looks related.1 related.2 inline).1
  mode related inline :=
    (congrArg Prod.fst (looks related.1 related.2 inline).2).trans related.1.symm
  next related inline :=
    have next := (looks related.1 related.2 inline).2
    .inl ⟨congrArg Prod.fst next, congrArg Prod.snd next⟩

lemma ofCut_append {σ τ : Type} {w : Cut σ} {v : Cut τ} (same : w.TakesAs v rest) (c : Char)
    (tail : List Char) : Lexeme.ofCut w c (rest ++ tail) = Lexeme.ofCut v c rest := by
  rw [Lexeme.ofCut, Lexeme.ofCut, same.kind, same.more, same.openQuote,
    List.take_append_of_le_length same.bound]

lemma lexemes_of_look_eq {text : List Char} {kind : TokenKind} {length : Nat} {mode : Mode}
    {shown : Shown} (positive : 0 < length) (bound : length ≤ text.length)
    (look : ∀ c rest, text = c :: rest →
      s.look c (rest ++ tail) = ⟨kind, length - 1, (mode, shown), none⟩) :
    ∃ s' : Scanner, s'.mode = mode ∧ s'.shown = shown ∧
      s'.previous = (text.take length).getLast? ∧
      s.lexemes 0 (text ++ tail) =
        ⟨kind, text.take length, none⟩ :: s'.lexemes 0 (text.drop length ++ tail) := by
  obtain ⟨n, rfl⟩ := Nat.exists_eq_succ_of_ne_zero (Nat.ne_of_gt positive)
  cases text with
  | nil => exact absurd bound (Nat.not_succ_le_zero n)
  | cons c rest =>
    have inner : n ≤ rest.length := Nat.le_of_succ_le_succ bound
    have here := look c rest rfl
    have taken : (rest ++ tail).take n = rest.take n := List.take_append_of_le_length inner
    refine ⟨(s.step c (rest ++ tail)).next, ?_, ?_, ?_, ?_⟩
    · exact congrArg (·.next.1) here
    · exact congrArg (·.next.2) here
    · change (c :: (rest ++ tail).take (s.look c (rest ++ tail)).more).getLast? = _
      rw [here]
      exact congrArg (fun xs => (c :: xs).getLast?) taken
    · rw [List.cons_append, lexemes_cons, here, Lexeme.ofCut]
      change ⟨kind, c :: (rest ++ tail).take n, none⟩ :: Scanner.lexemes _ n _ = _
      rw [taken, lexemes, Lexeme.cut_eq_cut_drop, List.drop_append_of_le_length inner]
      rfl

lemma lexemes_of_follows {σ : Type} {rule : σ → Char → List Char → Cut σ} {R : σ → Scanner → Prop}
    (follows : Follows rule R tail) {text : List Char} (inline : ∀ d ∈ text, isBreak d = false)
    {n : Nat} (inner : n ≤ text.length) {x : σ} {s : Scanner}
    (related : R x s) :
    ∃ s' : Scanner, s'.mode = s.mode ∧
      s.lexemes n (text ++ tail) = Lexeme.cut rule x n text ++ s'.lexemes 0 tail := by
  induction text generalizing n x s with
  | nil =>
    obtain rfl := Nat.le_zero.mp inner
    exact ⟨s, rfl, rfl⟩
  | cons c rest ih =>
    obtain ⟨-, others⟩ := List.forall_mem_cons.mp inline
    cases n with
    | succ n => exact ih others (Nat.le_of_succ_le_succ inner) related
    | zero =>
      have takes := follows.takes related inline
      have mode : (s.step c (rest ++ tail)).next.mode = s.mode := follows.mode related inline
      rw [List.cons_append, lexemes_cons, Lexeme.cut, ofCut_append takes, takes.more]
      rcases follows.next related inline with goes | whole
      · obtain ⟨s', kept, below⟩ := ih others takes.bound goes
        exact ⟨s', kept.trans mode, by rw [below]; rfl⟩
      · have all : (rule x c rest).more = rest.length := Nat.le_antisymm takes.bound whole
        refine ⟨_, mode, ?_⟩
        rw [all, lexemes_append_of_length, Lexeme.cut_of_length_le _ _ (Nat.le_refl _)]
        rfl

lemma lexemes_of_shown {σ : Type} {rule : σ → Char → List Char → Cut σ} {R : σ → Scanner → Prop}
    (follows : Follows rule R tail) {text : List Char} (inline : ∀ d ∈ text, isBreak d = false) {x : σ}
    (shown : Shown) (related : R x { s with shown := shown })
    (same : ∀ c rest, text = c :: rest →
      s.look c (rest ++ tail) = { s with shown := shown }.look c (rest ++ tail)) :
    ∃ s' : Scanner, s'.mode = s.mode ∧
      s.lexemes 0 (text ++ tail) = Lexeme.cut rule x 0 text ++ s'.lexemes 0 tail := by
  cases text with
  | nil => exact ⟨s, rfl, rfl⟩
  | cons c rest =>
    obtain ⟨s', mode, here⟩ := lexemes_of_follows follows inline (Nat.zero_le _) related
    exact ⟨s', mode, (lexemes_of_look (same c rest rfl)).trans here⟩

section Rules

lemma getLast?_taken (c : Char) {more : Nat} (bound : more ≤ rest.length) :
    (c :: (rest ++ tail).take more).getLast? = some (Lexeme.lastOf c rest more) := by
  rw [List.take_append_of_le_length bound, List.getLast?_cons]
  rfl

variable (below : Text.IsBelow tail)

include below

lemma textRun_append (inline : ∀ d ∈ rest, isBreak d = false) (openQuote : Option Nat) :
    (s.textRun c (rest ++ tail) openQuote).TakesAs (Lexeme.textRun c rest openQuote) rest :=
  ⟨rfl, runLength_append inline below c, rfl, Lexeme.runLength_le_length c rest⟩

lemma freeText_append {previous : Option Char}
    (same : Lexeme.isWordStart s.previous = Lexeme.isWordStart previous)
    (inline : ∀ d ∈ rest, isBreak d = false) (word : isPad c = false) :
    (s.freeText c (rest ++ tail)).TakesAs (Lexeme.freeText previous c rest) rest ∧
      (s.freeText c (rest ++ tail)).next = (s.mode, s.shown) ∧
      (Lexeme.freeText previous c rest).next =
        some (Lexeme.lastOf c rest (Lexeme.freeText previous c rest).more) := by
  have unpadded : ¬ isPad c = true := by simp [word]
  rw [freeText, Lexeme.freeText, if_neg unpadded, same, Literal.scan_append rest below,
    lineRest_append inline below]
  by_cases start : Lexeme.isWordStart previous
  · rw [if_pos start, if_pos start]
    cases found : Literal.scan c rest with
    | some literal => exact ⟨⟨rfl, rfl, rfl, Literal.le_length_of_scan found⟩, rfl, rfl⟩
    | none => exact ⟨textRun_append below inline _, rfl, rfl⟩
  · rw [if_neg start, if_neg start]
    exact ⟨textRun_append below inline _, rfl, rfl⟩

lemma follows_freeText :
    Follows Lexeme.freeText (fun previous s => s.mode = .plain ∧ s.shown = .text ∧
      Lexeme.isWordStart s.previous = Lexeme.isWordStart previous) tail := by
  have looks {previous : Option Char} {s : Scanner} {c : Char} {rest : List Char}
      (related : s.mode = .plain ∧ s.shown = .text ∧
        Lexeme.isWordStart s.previous = Lexeme.isWordStart previous)
      (inline : ∀ d ∈ c :: rest, isBreak d = false) :
      (s.look c (rest ++ tail)).TakesAs (Lexeme.freeText previous c rest) rest ∧
        (s.look c (rest ++ tail)).next = (.plain, .text) ∧
        (Lexeme.freeText previous c rest).next =
          some (Lexeme.lastOf c rest (Lexeme.freeText previous c rest).more) := by
    obtain ⟨plain, shown, same⟩ := related
    obtain ⟨first, others⟩ := List.forall_mem_cons.mp inline
    cases pad : isPad c with
    | true =>
      rw [look_of_pad pad, Lexeme.freeText, if_pos pad, plain, shown]
      exact ⟨⟨rfl, rfl, rfl, Nat.zero_le _⟩, rfl, rfl⟩
    | false =>
      obtain ⟨takes, next, last⟩ := freeText_append below same others pad
      rw [look_of_plain first pad plain, Scanner.plain, shown]
      exact ⟨takes, next.trans (by rw [plain, shown]), last⟩
  constructor
  · exact fun related inline => (looks related inline).1
  · exact fun related inline => (congrArg Prod.fst (looks related inline).2.1).trans related.1.symm
  · intro previous s c rest related inline
    obtain ⟨takes, next, last⟩ := looks related inline
    refine .inl ⟨congrArg Prod.fst next, congrArg Prod.snd next, congrArg _ ?_⟩
    rw [last]
    change (c :: (rest ++ tail).take _).getLast? = _
    rw [takes.more, getLast?_taken c takes.bound]

lemma follows_docLine (fence : Fence) (opened : Mark) :
    Follows Lexeme.docLine (fun _ s => s.mode = .docString fence opened ∧ s.shown = .text) tail := by
  refine .of_looks fun {s c rest} inside shown inline => ?_
  obtain ⟨first, others⟩ := List.forall_mem_cons.mp inline
  cases pad : isPad c with
  | true =>
    rw [look_of_pad pad, Lexeme.docLine, if_pos pad, inside, shown]
    exact ⟨⟨rfl, rfl, rfl, Nat.zero_le _⟩, rfl⟩
  | false =>
    have unpadded : ¬ isPad c = true := by simp [pad]
    rw [look_of_inside first pad inside, docString, shown, Lexeme.docLine, if_neg unpadded, inside,
      takeWhile_isLayout_append others below]
    exact ⟨⟨rfl, rfl, rfl, (List.takeWhile_prefix _).length_le⟩, rfl⟩

lemma follows_tableRow :
    Follows Lexeme.tableRow (fun _ s => s.mode = .plain ∧ s.shown = .row) tail := by
  refine .of_looks fun {s c rest} plain shown inline => ?_
  obtain ⟨first, others⟩ := List.forall_mem_cons.mp inline
  cases pad : isPad c with
  | true =>
    rw [look_of_pad pad, Lexeme.tableRow, if_pos pad, plain, shown]
    exact ⟨⟨rfl, rfl, rfl, Nat.zero_le _⟩, rfl⟩
  | false =>
    have unpadded : ¬ isPad c = true := by simp [pad]
    rw [look_of_plain first pad plain, Scanner.plain, shown]
    dsimp only
    rw [tableRow, Lexeme.tableRow, if_neg unpadded, untilBar_append others below, plain, shown]
    split
    · exact ⟨⟨rfl, rfl, rfl, Nat.zero_le _⟩, rfl⟩
    · exact ⟨⟨rfl, rfl, rfl, Nat.le_trans (Lexeme.length_dropEnd_le _ _)
        (Lexeme.length_untilBar_le _ _)⟩, rfl⟩

lemma comment_append (inline : ∀ d ∈ rest, isBreak d = false) :
    (s.comment (rest ++ tail)).more = rest.length := by
  rw [comment, lineRest_append inline below]

lemma tagLine_append (inline : ∀ d ∈ rest, isBreak d = false) (word : isPad c = false)
    (shown : s.shown = .tags) :
    (s.tagLine c (rest ++ tail)).TakesAs (Lexeme.tagLine false c rest) rest ∧
      (s.tagLine c (rest ++ tail)).next.1 = s.mode ∧
      ((s.tagLine c (rest ++ tail)).next.2 =
          (if (Lexeme.tagLine false c rest).next then .sign else .tags) ∨
        rest.length ≤ (Lexeme.tagLine false c rest).more) := by
  have unpadded : ¬ isPad c = true := by simp [word]
  have unsigned : ¬ (false && Lexeme.isTagChar c) = true := by simp
  rw [tagLine, Lexeme.tagLine, if_neg unpadded, if_neg unsigned]
  by_cases sign : c = '@'
  · rw [if_pos sign, if_pos sign]
    exact ⟨⟨rfl, rfl, rfl, Nat.zero_le _⟩, rfl, .inl rfl⟩
  · rw [if_neg sign, if_neg sign]
    by_cases remark : c = '#'
    · rw [if_pos remark, if_pos remark]
      exact ⟨⟨rfl, comment_append below inline, rfl, Nat.le_refl _⟩, rfl, .inr (Nat.le_refl _)⟩
    · rw [if_neg remark, if_neg remark]
      exact ⟨⟨rfl, runLength_append inline below c, rfl, Lexeme.runLength_le_length c rest⟩, rfl,
        .inl shown⟩

lemma follows_tagLine :
    Follows Lexeme.tagLine (fun signed s => s.mode = .plain ∧
      s.shown = if signed then .sign else .tags) tail := by
  have looks {signed : Bool} {s : Scanner} {c : Char} {rest : List Char}
      (related : s.mode = .plain ∧ s.shown = if signed then .sign else .tags)
      (inline : ∀ d ∈ c :: rest, isBreak d = false) :
      (s.look c (rest ++ tail)).TakesAs (Lexeme.tagLine signed c rest) rest ∧
        (s.look c (rest ++ tail)).next.1 = .plain ∧
        ((s.look c (rest ++ tail)).next.2 =
            (if (Lexeme.tagLine signed c rest).next then .sign else .tags) ∨
          rest.length ≤ (Lexeme.tagLine signed c rest).more) := by
    obtain ⟨plain, shown⟩ := related
    obtain ⟨first, others⟩ := List.forall_mem_cons.mp inline
    cases pad : isPad c with
    | true =>
      rw [look_of_pad pad, Lexeme.tagLine, if_pos pad, plain, shown]
      exact ⟨⟨rfl, rfl, rfl, Nat.zero_le _⟩, rfl, .inl (by cases signed <;> rfl)⟩
    | false =>
      have unpadded : ¬ isPad c = true := by simp [pad]
      rw [look_of_plain first pad plain, ← plain]
      cases signed with
      | false =>
        rw [Scanner.plain, show s.shown = .tags from shown]
        exact tagLine_append below others pad shown
      | true =>
        cases name : Lexeme.isTagChar c with
        | true =>
          have apart : c ≠ '@' := by
            rintro rfl
            cases name
          rw [plain_of_name shown name, Lexeme.tagLine, if_neg unpadded, if_neg apart, name,
            Text.takeWhile_append_of_isBelow (by decide) rest below]
          exact ⟨⟨rfl, rfl, rfl, (List.takeWhile_prefix _).length_le⟩, rfl, .inl rfl⟩
        | false =>
          rw [plain_of_nameless shown name, Lexeme.tagLine_of_nameless name]
          exact tagLine_append (s := { s with shown := .tags }) below others pad rfl
  constructor
  · exact fun related inline => (looks related inline).1
  · exact fun related inline => (looks related inline).2.1.trans related.1.symm
  · intro signed s c rest related inline
    obtain ⟨-, mode, next⟩ := looks related inline
    exact next.imp_left fun shown => ⟨mode, shown⟩

lemma lexemes_freeText {previous : Option Char} {text : List Char}
    (inline : ∀ d ∈ text, isBreak d = false) (plain : s.mode = .plain) (shown : s.shown = .text)
    (same : Lexeme.isWordStart s.previous = Lexeme.isWordStart previous) :
    ∃ s' : Scanner, s'.mode = .plain ∧ s.lexemes 0 (text ++ tail) =
      Lexeme.cut Lexeme.freeText previous 0 text ++ s'.lexemes 0 tail := by
  obtain ⟨s', mode, here⟩ := lexemes_of_follows (follows_freeText below) inline (Nat.zero_le _)
    (show s.mode = .plain ∧ s.shown = .text ∧ _ from ⟨plain, shown, same⟩)
  exact ⟨s', mode.trans plain, here⟩

lemma lexemes_comment {text : List Char} (inline : ∀ d ∈ text, isBreak d = false) (some : text ≠ [])
    (look : ∀ c rest, text = c :: rest → s.look c (rest ++ tail) = s.comment (rest ++ tail)) :
    ∃ s' : Scanner, s'.mode = s.mode ∧
      s.lexemes 0 (text ++ tail) = ⟨.comment, text, none⟩ :: s'.lexemes 0 tail := by
  obtain ⟨s', mode, -, -, here⟩ := lexemes_of_look_eq (List.length_pos_iff.mpr some)
    (Nat.le_refl _) fun c rest whole => by
      rw [look c rest whole, comment, lineRest_append
        (fun d hd => inline d (whole ▸ List.mem_cons_of_mem c hd)) below, whole]
      rfl
  rw [List.take_length, List.drop_length] at here
  exact ⟨s', mode, here⟩

/-- Behind the keyword of a header its colon is next, and then free text. -/
lemma lexemes_behindHeader {after : List Char} (inline : ∀ d ∈ after, isBreak d = false)
    (plain : s.mode = .plain) (shown : s.shown = .header) :
    ∃ s' : Scanner, s'.mode = .plain ∧ s.lexemes 0 (':' :: after ++ tail) =
      ⟨.colon, [':'], none⟩ :: Lexeme.cut Lexeme.freeText (some ':') 0 after ++ s'.lexemes 0 tail := by
  have due : ∀ c rest, ':' :: after = c :: rest →
      s.look c (rest ++ tail) = ⟨.colon, 1 - 1, (.plain, .text), none⟩ := by
    intro c rest whole
    obtain ⟨rfl, -⟩ := List.cons.inj whole
    rw [look_of_plain rfl rfl plain, Scanner.plain, shown]
    exact congrArg (fun mode => Cut.mk _ _ (mode, _) _) plain
  obtain ⟨s₁, plain₁, shown₁, previous, colon⟩ := lexemes_of_look_eq Nat.one_pos (by simp) due
  obtain ⟨s', mode, free⟩ := lexemes_freeText below inline plain₁ shown₁
    (congrArg Lexeme.isWordStart previous)
  refine ⟨s', mode, ?_⟩
  rw [colon]
  exact congrArg (List.cons _) free

/-- Behind the keyword of a step there is a comment, or else padding and free text. -/
lemma lexemes_behindStep {c : Char} {after : List Char}
    (inline : ∀ d ∈ c :: after, isBreak d = false) (apart : c ≠ '#' → isPad c)
    (plain : s.mode = .plain) (shown : s.shown = .step) :
    ∃ s' : Scanner, s'.mode = .plain ∧ s.lexemes 0 (c :: after ++ tail) =
      (if c = '#' then [⟨.comment, c :: after, none⟩]
        else Lexeme.cut Lexeme.freeText none 0 (c :: after)) ++ s'.lexemes 0 tail := by
  by_cases remark : c = '#'
  · obtain ⟨s', mode, comment⟩ := lexemes_comment (s := s) below inline (List.cons_ne_nil _ _)
      fun d more whole => by
        obtain ⟨rfl, rfl⟩ := List.cons.inj whole
        rw [look_of_plain (inline c List.mem_cons_self) (by rw [remark]; rfl) plain, Scanner.plain,
          shown]
        exact if_pos remark
    refine ⟨s', mode.trans plain, ?_⟩
    rw [if_pos remark, comment]
    rfl
  · have pad := apart remark
    -- Behind the padding nothing tells any more that a keyword stands in front.
    have forgotten : ∀ d rest, c :: after = d :: rest →
        s.look d (rest ++ tail) = { s with shown := .text }.look d (rest ++ tail) := by
      intro d rest whole
      obtain ⟨rfl, -⟩ := List.cons.inj whole
      rw [look_of_pad pad, look_of_pad pad, shown]
      rfl
    obtain ⟨s', mode, free⟩ := lexemes_of_shown (follows_freeText below) inline .text
      ⟨plain, rfl, rfl⟩ forgotten
    exact ⟨s', mode.trans plain, by rw [if_neg remark, free, Lexeme.cut_freeText_of_isPad pad]⟩

lemma lexemes_keywordLine {text : List Char} (inline : ∀ d ∈ text, isBreak d = false)
    {m : Keyword.Match} (found : Keyword.at? text = some m)
    (look : ∀ c rest, text = c :: rest → s.look c (rest ++ tail) =
      ⟨m.kind, m.length - 1, (.plain, if m.kind.isHeader then .header else .step), none⟩) :
    ∃ s' : Scanner, s'.mode = .plain ∧
      s.lexemes 0 (text ++ tail) = Lexeme.keywordLine m text ++ s'.lexemes 0 tail := by
  obtain ⟨s₁, plain, shown, -, keyword⟩ := lexemes_of_look_eq (Keyword.length_pos_of_at? found)
    (Keyword.length_le_of_at? found) look
  have inner : ∀ d ∈ text.drop m.length, isBreak d = false :=
    fun d hd => inline d (List.mem_of_mem_drop hd)
  rw [keyword, Lexeme.keywordLine]
  cases header : m.kind.isHeader with
  | true =>
    obtain ⟨after, rest⟩ := Keyword.colon_of_at? found header
    rw [rest] at inner ⊢
    obtain ⟨s', mode, here⟩ := lexemes_behindHeader below (List.forall_mem_cons.mp inner).2 plain
      (shown.trans (if_pos header))
    exact ⟨s', mode, congrArg (List.cons _) here⟩
  | false =>
    cases rest : text.drop m.length with
    | nil => exact ⟨s₁, plain, by rw [List.nil_append]; rfl⟩
    | cons c after =>
      rw [rest] at inner
      obtain ⟨s', mode, here⟩ := lexemes_behindStep below inner
        (Keyword.isPad_of_at? found header rest (inner c List.mem_cons_self)) plain
        (shown.trans (if_neg (Bool.eq_false_iff.mp header)))
      exact ⟨s', mode, congrArg (List.cons _) here⟩

lemma look_word {text : List Char} {c : Char} (whole : text = c :: rest) (other : c ∉ ['#', '|', '@'])
    (plain : s.mode = .plain) (front : s.look c (rest ++ tail) = s.lineStart c (rest ++ tail)) :
    s.look c (rest ++ tail) =
      match Fence.at? text with
      | some fence => ⟨.fence, Fence.width - 1, (.docString fence s.mark, .text), none⟩
      | none =>
        match Keyword.at? text with
        | some m =>
          ⟨m.kind, m.length - 1, (.plain, if m.kind.isHeader then .header else .step), none⟩
        | none => { s with shown := .text }.freeText c (rest ++ tail) := by
  subst whole
  simp only [List.mem_cons, List.not_mem_nil, or_false, not_or] at other
  rw [front, lineStart, if_neg other.1, if_neg other.2.1, if_neg other.2.2, ← List.cons_append,
    Fence.at?_append _ below, Keyword.at?_append _ below]
  cases Fence.at? (c :: rest) with
  | some fence => rfl
  | none =>
    cases Keyword.at? (c :: rest) with
    | some m => exact congrArg (fun mode => Cut.mk _ _ (mode, _) _) plain
    | none => rfl

lemma lexemes_openingLine {text : List Char} (inline : ∀ d ∈ text, isBreak d = false)
    {fence : Fence} (opens : fence.marker.isPrefixOf text)
    (look : ∀ c rest, text = c :: rest → s.look c (rest ++ tail) =
      ⟨.fence, Fence.width - 1, (.docString fence s.mark, .text), none⟩) :
    ∃ s' : Scanner, s'.mode.fence? = some fence ∧ s.lexemes 0 (text ++ tail) =
      ⟨.fence, text.take 3, none⟩ :: Lexeme.cut Lexeme.docLine () 0 (text.drop 3) ++
        s'.lexemes 0 tail := by
  obtain ⟨s₁, inside, shown, -, marker⟩ := lexemes_of_look_eq (by decide)
    (fence.width_le_length opens) look
  obtain ⟨s', mode, here⟩ := lexemes_of_follows (follows_docLine below fence s.mark)
    (fun d hd => inline d (List.mem_of_mem_drop hd)) (Nat.zero_le _) ⟨inside, shown⟩
  refine ⟨s', by rw [mode, inside]; rfl, ?_⟩
  rw [marker]
  exact congrArg (List.cons _) here

lemma lexemes_plainLine {text : List Char} (inline : ∀ d ∈ text, isBreak d = false)
    (unpadded : ∀ d ∈ text.head?, isPad d = false) (plain : s.mode = .plain)
    (fresh : s.shown = .nothing) (word : Lexeme.isWordStart s.previous) :
    ∃ s' : Scanner, s'.mode.fence? = Fence.behind none text ∧
      s.lexemes 0 (text ++ tail) = Lexeme.plainLine text ++ s'.lexemes 0 tail := by
  have start {c : Char} {rest : List Char} (whole : text = c :: rest) (s' : Scanner)
      (plain : s'.mode = .plain) : s'.look c (rest ++ tail) = s'.plain c (rest ++ tail) :=
    look_of_plain (inline c (whole ▸ List.mem_cons_self)) (unpadded c (by rw [whole]; rfl)) plain
  have front {c : Char} {rest : List Char} (whole : text = c :: rest) :
      s.look c (rest ++ tail) = s.lineStart c (rest ++ tail) := by
    rw [start whole s plain, Scanner.plain, fresh]
  unfold Lexeme.plainLine
  split
  case h_1 => exact ⟨s, by rw [plain]; rfl, rfl⟩
  case h_2 rest =>
    obtain ⟨s', mode, comment⟩ := lexemes_comment (s := s) below inline (List.cons_ne_nil _ _)
      fun c more whole => by
        rw [front whole]
        obtain ⟨rfl, rfl⟩ := List.cons.inj whole
        rfl
    exact ⟨s', by rw [mode, plain]; rfl, comment⟩
  case h_3 rest =>
    obtain ⟨s', mode, here⟩ := lexemes_of_shown (s := s) (follows_tableRow below) inline .row
      ⟨plain, rfl⟩ fun c more whole => by
        rw [front whole, start whole { s with shown := .row } plain]
        obtain ⟨rfl, rfl⟩ := List.cons.inj whole
        rfl
    exact ⟨s', by rw [mode, plain]; rfl, here⟩
  case h_4 rest =>
    obtain ⟨s', mode, here⟩ := lexemes_of_shown (s := s) (x := false) (follows_tagLine below) inline
      .tags ⟨plain, rfl⟩ fun c more whole => by
        rw [front whole, start whole { s with shown := .tags } plain]
        obtain ⟨rfl, rfl⟩ := List.cons.inj whole
        rfl
    exact ⟨s', by rw [mode, plain]; rfl, here⟩
  case h_5 some noRemark noRow noTag =>
    have behind (c : Char) (rest : List Char) (whole : text = c :: rest) := by
      refine look_word below whole ?_ plain (front whole)
      simp only [List.mem_cons, List.not_mem_nil, or_false, not_or]
      exact ⟨fun h => noRemark rest (h ▸ whole), fun h => noRow rest (h ▸ whole),
        fun h => noTag rest (h ▸ whole)⟩
    cases opens : Fence.at? text with
    | some fence =>
      simp only [opens] at behind
      obtain ⟨s', mode, here⟩ := lexemes_openingLine below inline (Fence.isPrefixOf_of_at? opens) behind
      exact ⟨s', by rw [mode, Fence.behind, opens], here⟩
    | none =>
      simp only [opens] at behind
      have stays : Fence.behind none text = none := by rw [Fence.behind, opens]
      cases found : Keyword.at? text with
      | some m =>
        simp only [found] at behind
        obtain ⟨s', mode, here⟩ := lexemes_keywordLine below inline found behind
        exact ⟨s', by rw [mode, stays]; rfl, here⟩
      | none =>
        simp only [found] at behind
        obtain ⟨s', mode, here⟩ := lexemes_of_shown (s := s) (x := none) (follows_freeText below)
          inline .text ⟨plain, rfl, word⟩ fun c rest whole => by
            rw [behind c rest whole, start whole { s with shown := .text } plain]
            rfl
        exact ⟨s', by rw [mode, plain, stays]; rfl, here⟩

lemma lexemes_fencedLine {text : List Char} (inline : ∀ d ∈ text, isBreak d = false)
    (unpadded : ∀ d ∈ text.head?, isPad d = false) {fence : Fence} {opened : Mark}
    (inside : s.mode = .docString fence opened) (fresh : s.shown = .nothing) :
    ∃ s' : Scanner, s'.mode.fence? = Fence.behind (some fence) text ∧
      s.lexemes 0 (text ++ tail) = Lexeme.fencedLine fence text ++ s'.lexemes 0 tail := by
  have start {c : Char} {rest : List Char} (whole : text = c :: rest) :
      s.look c (rest ++ tail) = if fence.marker.isPrefixOf text then
        ⟨.fence, Fence.width - 1, (.plain, .text), none⟩
      else { s with shown := .text }.docString c (rest ++ tail) fence := by
    rw [look_of_inside (inline c (whole ▸ List.mem_cons_self)) (unpadded c (by rw [whole]; rfl)) inside,
      docString, fresh, ← List.cons_append, fence.isPrefixOf_append _ below, ← whole]
    rfl
  rw [Lexeme.fencedLine, Fence.behind]
  by_cases closes : fence.marker.isPrefixOf text
  · simp only [if_pos closes] at start ⊢
    obtain ⟨s₁, plain, shown, previous, first⟩ := lexemes_of_look_eq (by decide)
      (fence.width_le_length closes) fun _ _ whole => start whole
    have last : s₁.previous = fence.marker.getLast? :=
      previous.trans (congrArg _ (Fence.take_marker closes))
    obtain ⟨s', mode, here⟩ := lexemes_freeText below
      (fun d hd => inline d (List.mem_of_mem_drop hd)) plain shown (congrArg Lexeme.isWordStart last)
    refine ⟨s', by rw [mode]; rfl, ?_⟩
    rw [first]
    exact congrArg (List.cons _) here
  · simp only [if_neg closes] at start ⊢
    obtain ⟨s', mode, here⟩ := lexemes_of_shown (s := s) (follows_docLine below fence opened) inline
      .text ⟨inside, rfl⟩ fun c rest whole => by
        rw [start whole]
        exact (look_of_inside (s := { s with shown := .text }) (inline c (whole ▸ List.mem_cons_self))
          (unpadded c (by rw [whole]; rfl)) inside).symm
    exact ⟨s', by rw [mode, inside]; rfl, here⟩

end Rules

structure IsFresh (s : Scanner) : Prop where
  shown : s.shown = .nothing
  word : Lexeme.isWordStart s.previous

lemma lexemes_pads (fresh : s.IsFresh) {pads : List Char} (all : ∀ c ∈ pads, isPad c)
    (text : List Char) :
    ∃ s' : Scanner, s'.mode = s.mode ∧ s'.IsFresh ∧
      s.lexemes 0 (pads ++ text) = pads.map Lexeme.pad ++ s'.lexemes 0 text := by
  induction pads generalizing s with
  | nil => exact ⟨s, rfl, fresh, rfl⟩
  | cons c pads ih =>
    obtain ⟨pad, others⟩ := List.forall_mem_cons.mp all
    have look : s.look c (pads ++ text) = _ := look_of_pad pad
    have mode : (s.step c (pads ++ text)).next.mode = s.mode := congrArg (·.next.1) look
    have behind : (s.step c (pads ++ text)).next.IsFresh := by
      refine ⟨(congrArg (·.next.2) look).trans (by rw [fresh.shown]; rfl), ?_⟩
      change Lexeme.isWordStart (c :: (pads ++ text).take (s.look c (pads ++ text)).more).getLast?
      rw [look]
      exact Lexeme.isWordStart_of_isPad pad
    obtain ⟨s', kept, fresh', here⟩ := ih behind others
    refine ⟨s', kept.trans mode, fresh', ?_⟩
    rw [List.cons_append, lexemes_cons, look, Lexeme.ofCut]
    exact congrArg (List.cons _) here

lemma lexemes_ofContent (fresh : s.IsFresh) {content : List Char}
    (inline : ∀ d ∈ content, isBreak d = false) (below : Text.IsBelow tail) :
    ∃ s' : Scanner, s'.mode.fence? = Fence.behind s.mode.fence? (content.dropWhile isPad) ∧
      s.lexemes 0 (content ++ tail) = Lexeme.ofContent s.mode.fence? content ++ s'.lexemes 0 tail := by
  have pads : ∀ c ∈ content.takeWhile isPad, isPad c := fun c hc => List.mem_takeWhile_imp hc
  obtain ⟨s₁, mode, fresh₁, padded⟩ := lexemes_pads fresh pads (content.dropWhile isPad ++ tail)
  have text : ∀ d ∈ content.dropWhile isPad, isBreak d = false :=
    fun d hd => inline d ((List.dropWhile_sublist _).subset hd)
  have unpadded := Lexeme.unpadded_dropWhile content
  have whole : content ++ tail = content.takeWhile isPad ++ (content.dropWhile isPad ++ tail) := by
    rw [← List.append_assoc, List.takeWhile_append_dropWhile]
  rw [whole, padded, ← mode]
  cases here : s₁.mode with
  | plain =>
    obtain ⟨s', behind, line⟩ := lexemes_plainLine below text unpadded here fresh₁.shown fresh₁.word
    exact ⟨s', behind, by rw [line, ← List.append_assoc]; rfl⟩
  | docString fence opened =>
    obtain ⟨s', behind, line⟩ := lexemes_fencedLine below text unpadded here fresh₁.shown
    exact ⟨s', behind, by rw [line, ← List.append_assoc]; rfl⟩

lemma look_of_break {ending more : List Char} (stop : Text.IsLineEnd ending more) {c : Char}
    {rest : List Char} (whole : ending = c :: rest) :
    s.look c (rest ++ more) = ⟨.eol, ending.length - 1, (s.mode, .nothing), none⟩ := by
  have found : breakMore? c (rest ++ more) = some (ending.length - 1) := by
    rcases stop with rfl | rfl | ⟨rfl, apart⟩ | ⟨rfl, rfl⟩
    · obtain ⟨rfl, rfl⟩ := List.cons.inj whole
      rfl
    · obtain ⟨rfl, rfl⟩ := List.cons.inj whole
      rfl
    · obtain ⟨rfl, rfl⟩ := List.cons.inj whole
      exact congrArg some (if_neg apart)
    · cases whole
  rw [look, found]

lemma lexemes_ofEnding (s : Scanner) {ending more : List Char} (stop : Text.IsLineEnd ending more)
    (breaks : ∀ c ∈ ending, isBreak c) (some : ending ≠ []) :
    ∃ s' : Scanner, s'.mode = s.mode ∧ s'.IsFresh ∧
      s.lexemes 0 (ending ++ more) = Lexeme.ofEnding ending ++ s'.lexemes 0 more := by
  obtain ⟨s', mode, shown, previous, here⟩ := lexemes_of_look_eq (List.length_pos_iff.mpr some)
    (Nat.le_refl _) fun _ _ whole => look_of_break (s := s) stop whole
  rw [List.take_length] at previous here
  rw [List.drop_length] at here
  refine ⟨s', mode, ⟨shown, ?_⟩, ?_⟩
  · rw [previous, List.getLast?_eq_some_getLast some]
    exact Lexeme.isWordStart_of_isBreak (breaks _ (List.getLast_mem some))
  · obtain ⟨c, rest, rfl⟩ := List.exists_cons_of_ne_nil some
    exact here

/-- From the front of a line on, the scanner cuts off the lexemes of the lines. -/
theorem lexemes_eq_ofLines (fresh : s.IsFresh) (text : List Char) :
    s.lexemes 0 text = Lexeme.ofLines s.mode.fence? (Text.lines text) := by
  induction length : text.length using Nat.strong_induction_on generalizing s text with
  | _ n ih =>
    by_cases some : text = []
    · rw [some]
      rfl
    · obtain ⟨content, ending, more, rfl, inline, stop, breaks, nonempty⟩ := Text.exists_line some
      have below : Text.IsBelow (ending ++ more) := by
        cases ending with
        | nil => simp_all [Text.IsLineEnd, Text.IsBelow]
        | cons c rest => simpa [Text.IsBelow] using breaks c
      obtain ⟨s₁, behind, line⟩ := lexemes_ofContent fresh inline below
      rw [line, Text.lines_line inline stop nonempty, Lexeme.ofLines, ← behind, List.append_assoc]
      congr 1
      by_cases last : ending = []
      · obtain rfl : more = [] := by simpa [Text.IsLineEnd, last] using stop
        rw [last]
        rfl
      · obtain ⟨s₂, mode, fresh₂, eol⟩ := lexemes_ofEnding s₁ stop breaks last
        have shorter : more.length < n := by
          have positive := List.length_pos_iff.mpr last
          simp only [← length, List.length_append]
          omega
        rw [eol, ih _ shorter fresh₂ more rfl, mode]

lemma isFresh_start (text : List Char) : (start text).IsFresh := by
  have marked : Lexeme.isWordStart (some Text.byteOrderMark) := by decide +kernel
  refine ⟨rfl, ?_⟩
  change Lexeme.isWordStart (text.head?.filter (· = Text.byteOrderMark))
  cases mark : text.head?.filter (· = Text.byteOrderMark) with
  | none => rfl
  | some c =>
    obtain ⟨-, same⟩ := Option.filter_eq_some_iff.mp mark
    have bom : c = Text.byteOrderMark := of_decide_eq_true same
    exact bom ▸ marked

end Scanner

namespace Stream

variable (text : List Char)

lemma lexemes_start :
    (Scanner.start text).lexemes 0 (Text.stripMark text) = Lexeme.ofText (Text.stripMark text) :=
  Scanner.lexemes_eq_ofLines (Scanner.isFresh_start text) _

lemma content_ofText :
    (ofText text).content = Token.place (origin text) (Lexeme.ofText (Text.stripMark text)) := by
  rw [← lexemes_start]
  exact Scanner.content_scan _ 0 _

lemma stop_eq :
    (ofText text).stop = Token.placeEnd (origin text) (Lexeme.ofText (Text.stripMark text)) := by
  rw [← lexemes_start]
  exact Scanner.stop_scan _ 0 _

lemma notes_ofText :
    (ofText text).notes =
      ScanNote.ofLexemes false (origin text) (Lexeme.ofText (Text.stripMark text)) := by
  rw [← lexemes_start]
  exact Scanner.notes_scan _ 0 _

/-- The scanner has a doc string open at the end where the fences leave one open. -/
theorem openDocString_ofText :
    (ofText text).openDocString =
      (openFence (ofText text).content).map fun t => ⟨.openDocString, t.start, t.stop.offset⟩ :=
  Scanner.openDocString_scan _ 0 _ rfl

/-- The scanner, which goes from lexeme to lexeme with all the rest of the text before it, scans a text
line by line. -/
theorem ofText_eq :
    ofText text =
      let lexemes := Lexeme.ofText (Text.stripMark text)
      ⟨Token.place (origin text) lexemes, Token.placeEnd (origin text) lexemes,
        ScanNote.ofLexemes false (origin text) lexemes,
        (openFence (Token.place (origin text) lexemes)).map fun t =>
          ⟨.openDocString, t.start, t.stop.offset⟩⟩ := by
  simp only [← content_ofText, ← stop_eq, ← notes_ofText, ← openDocString_ofText]

end Stream

end FeatureFile
