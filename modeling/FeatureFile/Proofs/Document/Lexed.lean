import FeatureFile.Proofs.Document.Body

namespace FeatureFile

namespace Lexeme.PlainShape

variable {k : TokenKind} {ks : List TokenKind}

lemma of_header {word : HeaderWord} (h : PlainShape (.header word :: ks)) :
    ∃ more, ks = .colon :: more ∧ ∀ k ∈ more, k.isFree := by
  generalize whole : TokenKind.header word :: ks = line at h
  cases h with
  | header _ free => exact ⟨_, (List.cons.inj whole).2, free⟩
  | prose free =>
    obtain ⟨rfl, -⟩ := List.cons.inj whole
    cases free
  | _ => cases whole

lemma of_step {word : StepWord} (h : PlainShape (.step word :: ks)) :
    (∀ k ∈ ks, k.isFree) ∨ ks = [.comment] := by
  generalize whole : TokenKind.step word :: ks = line at h
  cases h with
  | step _ free => exact .inl ((List.cons.inj whole).2 ▸ free)
  | remark => exact .inr (List.cons.inj whole).2
  | prose free =>
    obtain ⟨rfl, -⟩ := List.cons.inj whole
    cases free
  | _ => cases whole

lemma of_pipe (h : PlainShape (.pipe :: ks)) : (∀ k ∈ ks, k.isRowPart) ∧ IsApart ks := by
  generalize whole : TokenKind.pipe :: ks = line at h
  cases h with
  | row parts apart =>
    obtain ⟨-, rfl⟩ := List.cons.inj whole
    exact ⟨parts, apart⟩
  | prose free =>
    obtain ⟨rfl, -⟩ := List.cons.inj whole
    cases free
  | _ => cases whole

lemma of_atSign (h : PlainShape (.atSign :: ks)) :
    ∀ k ∈ ks, k = .atSign ∨ k = .text ∨ k.isTrivia := by
  have part : ∀ k : TokenKind, k.isTagPart → k = .atSign ∨ k = .text ∨ k.isTrivia := by
    intro k hk
    cases k <;> simp_all [TokenKind.isTagPart, TokenKind.isPad, TokenKind.isTrivia]
  generalize whole : TokenKind.atSign :: ks = line at h
  cases h with
  | tags parts last =>
    obtain ⟨-, rfl⟩ := List.cons.inj whole
    refine List.forall_mem_append.mpr ⟨fun k hk => part k (parts k hk), fun k hk => .inr (.inr ?_)⟩
    rcases last with rfl | rfl
    · cases hk
    · rw [List.mem_singleton.mp hk]
      rfl
  | prose free word _ =>
    obtain ⟨rfl, -⟩ := List.cons.inj whole
    cases free
  | _ => cases whole

lemma of_fence (h : PlainShape (.fence :: ks)) : ∀ k ∈ ks, k.isVerbatim := by
  generalize whole : TokenKind.fence :: ks = line at h
  cases h with
  | fence verbatim => exact (List.cons.inj whole).2 ▸ verbatim
  | prose free =>
    obtain ⟨rfl, -⟩ := List.cons.inj whole
    cases free
  | _ => cases whole

lemma of_prose (h : PlainShape (k :: ks)) (prose : k.isProse) (content : k.isTrivia = false) :
    ∀ k' ∈ k :: ks, k'.isFree := by
  generalize whole : k :: ks = line at h
  cases h with
  | prose first _ free => exact List.forall_mem_cons.mpr ⟨first, free⟩
  | blank => cases whole
  | comment =>
    obtain ⟨rfl, -⟩ := List.cons.inj whole
    cases content
  | _ =>
    obtain ⟨rfl, -⟩ := List.cons.inj whole
    cases prose

end Lexeme.PlainShape

structure Line.IsLexed (l : Line) : Prop where
  shape : Lexeme.PlainShape ((l.head :: l.tail).map Token.kind)
  content : l.kind.isTrivia = false
  closed : l.IsClosed

structure Block.IsLexed (b : Block) : Prop where
  opening : b.opening.IsLexed
  fence : b.opening.kind = .fence
  content : ∀ t ∈ b.content, t.kind.isVerbatim ∨ t.kind = .eol
  closing : ∀ c ∈ b.closing, (∀ t ∈ c.1, t.kind.isPad) ∧ c.2.kind = .fence

namespace Line

variable {l : Line}

lemma IsLexed.header (h : l.IsLexed) (kind : l.kind.isHeader) :
    ∃ c rest, l.tail = c :: rest ∧ c.kind = .colon ∧ ∀ t ∈ rest, t.kind.isFree := by
  obtain ⟨word, head⟩ : ∃ word, l.head.kind = .header word := by
    rw [Line.kind] at kind
    cases same : l.head.kind <;> simp_all [TokenKind.isHeader]
  have shape := h.shape
  rw [List.map_cons, head] at shape
  obtain ⟨more, whole, free⟩ := shape.of_header
  obtain ⟨c, rest, cut, colon, rfl⟩ := List.map_eq_cons_iff.mp whole
  exact ⟨c, rest, cut, colon, fun t ht => free _ (List.mem_map_of_mem ht)⟩

lemma IsLexed.step (h : l.IsLexed) (kind : l.kind.isStep) :
    ∀ t ∈ l.tail, t.kind.isFree ∨ t.kind = .comment := by
  obtain ⟨word, head⟩ : ∃ word, l.head.kind = .step word := by
    rw [Line.kind] at kind
    cases same : l.head.kind <;> simp_all [TokenKind.isStep]
  have shape := h.shape
  rw [List.map_cons, head] at shape
  intro t ht
  rcases shape.of_step with free | comment
  · exact .inl (free _ (List.mem_map_of_mem ht))
  · have mem : t.kind ∈ l.tail.map Token.kind := List.mem_map_of_mem ht
    exact .inr (by simpa [comment] using mem)

lemma IsLexed.row (h : l.IsLexed) (kind : l.kind = .pipe) :
    (∀ t ∈ l.tail, t.kind.isRowPart) ∧ Lexeme.IsApart (l.tail.map Token.kind) := by
  have head : l.head.kind = .pipe := kind
  have shape := h.shape
  rw [List.map_cons, head] at shape
  exact ⟨fun t ht => shape.of_pipe.1 _ (List.mem_map_of_mem ht), shape.of_pipe.2⟩

lemma IsLexed.fence (h : l.IsLexed) (kind : l.kind = .fence) : ∀ t ∈ l.tail, t.kind.isVerbatim := by
  have head : l.head.kind = .fence := kind
  have shape := h.shape
  rw [List.map_cons, head] at shape
  exact fun t ht => shape.of_fence _ (List.mem_map_of_mem ht)

lemma IsLexed.prose (h : l.IsLexed) (kind : l.kind.isProse) :
    ∀ t ∈ l.tokens, t.kind.isFree ∨ t.kind = .eol := by
  have free := h.shape.of_prose kind h.content
  intro t ht
  rcases List.mem_append.mp ht with ht | ht
  · exact .inl (free _ (List.mem_map_of_mem ht))
  · exact .inr (h.closed t (by simpa using ht))

lemma isTrivia_of_significant? {l : RawLine} {found : Line} (h : l.significant? = some found) :
    found.kind.isTrivia = false := by
  have dropped := List.head?_dropWhile_not (fun t : Token => t.kind.isTrivia) l.content
  rw [dropWhile_of_significant? h] at dropped
  simpa [kind] using dropped

lemma isLexed_of_significant? {l : RawLine} {found : Line} (closed : l.IsClosed)
    (shape : Lexeme.PlainShape l.shape) (h : l.significant? = some found) : found.IsLexed where
  shape := RawLine.body_of_significant? shape h ▸ shape
  content := isTrivia_of_significant? h
  closed t ht := closed.ending t (ending_of_significant? h ▸ ht)

end Line

namespace Item

def IsLexed : Item → Prop
  | line l => l.IsLexed ∧ l.kind ≠ .fence
  | block b => b.IsLexed

lemma isFree_of_closing? {l : RawLine} {indent more : List Token} {fence : Token}
    (shape : Lexeme.FencedShape l.shape) (h : closing? l = some (indent, fence, more)) :
    ∀ t ∈ more, t.kind.isFree := by
  obtain ⟨-, kind, body⟩ := closing?_eq_some h
  rw [RawLine.shape, body, List.map_cons, kind] at shape
  cases shape with
  | content verbatim _ _ => cases verbatim
  | closing free => exact fun t ht => free _ (List.mem_map_of_mem ht)

lemma isPad_of_closing? {l : RawLine} {indent more : List Token} {fence : Token}
    (h : closing? l = some (indent, fence, more)) : ∀ t ∈ indent, t.kind.isPad := by
  rw [closing?] at h
  split at h
  case h_1 => cases h
  case h_2 t rest heq =>
    split at h
    case isFalse => cases h
    case isTrue =>
      obtain ⟨rfl, -⟩ := Prod.mk.inj (Option.some.inj h)
      exact fun t ht => List.mem_takeWhile_imp (p := fun t : Token => t.kind.isPad) ht

lemma isLexed_behindFence {more : List Token} {ending : Option Token}
    (free : ∀ t ∈ more, t.kind.isFree) (closed : ∀ t ∈ ending, t.kind = .eol) :
    ∀ i ∈ behindFence more ending, i.IsLexed := by
  rw [behindFence]
  split
  case h_1 => simp
  case h_2 t rest kept =>
    have inner : ∀ u ∈ t :: rest, u.kind.isFree :=
      fun u hu => free u ((List.dropWhile_suffix _).subset (kept ▸ hu))
    obtain ⟨first, others⟩ := List.forall_mem_cons.mp inner
    have word : t.kind.isPad = false := by
      have dropped := List.head?_dropWhile_not (fun t : Token => t.kind.isPad) more
      rw [kept] at dropped
      simpa using dropped
    have content : t.kind.isTrivia = false ∧ t.kind ≠ .fence := by
      cases kind : t.kind <;> simp_all [TokenKind.isFree, TokenKind.isPad, TokenKind.isLiteral,
        TokenKind.isTrivia]
    have shape : Lexeme.PlainShape ((t :: rest).map Token.kind) :=
      .prose first word (by simpa using others)
    simpa using ⟨⟨shape, content.1, closed⟩, content.2⟩

structure IsOpened (opened : Line × List Token) : Prop where
  opening : opened.1.IsLexed
  fence : opened.1.kind = .fence
  content : ∀ t ∈ opened.2, t.kind.isVerbatim ∨ t.kind = .eol

lemma isVerbatim_of_closing?_none {l : RawLine} (closed : l.IsClosed)
    (shape : Lexeme.FencedShape l.shape) (h : closing? l = none) :
    ∀ t ∈ l.tokens, t.kind.isVerbatim ∨ t.kind = .eol := by
  have padded : ∀ t ∈ l.content.takeWhile (·.kind.isPad), t.kind.isVerbatim := by
    intro t ht
    have pad := List.mem_takeWhile_imp (p := fun t : Token => t.kind.isPad) ht
    simp_all [TokenKind.isVerbatim]
  have words : ∀ t ∈ l.body, t.kind.isVerbatim := by
    intro t ht
    have mem : t.kind ∈ l.shape := List.mem_map_of_mem ht
    have stays := RawLine.turns_of_closing?_none h
    rw [RawLine.turns] at stays
    generalize l.shape = ks at shape mem stays
    have all : ∀ k ∈ ks, k.isVerbatim := by
      cases shape with
      | blank => simp
      | content first _ rest => exact List.forall_mem_cons.mpr ⟨first, rest⟩
      | closing => simp at stays
    exact all _ mem
  intro t ht
  rcases List.mem_append.mp ht with ht | ht
  · rw [l.content_eq] at ht
    exact .inl (List.forall_mem_append.mpr ⟨padded, words⟩ t ht)
  · exact .inr (closed.ending t (by simpa using ht))

theorem isLexed_ofLines (opened : Option (Line × List Token)) {ls : List RawLine}
    (scanned : Scanned opened.isSome ls) (open? : ∀ o ∈ opened, IsOpened o) :
    ∀ i ∈ ofLines opened ls, i.IsLexed := by
  fun_induction ofLines opened ls with
  | case1 => simp
  | case2 opening content =>
    have front := open? _ rfl
    have whole : Block.IsLexed ⟨opening, content, none⟩ :=
      ⟨front.opening, front.fence, front.content, by simp⟩
    simpa [IsLexed] using whole
  | case3 l rest blank ih =>
    exact ih (scanned.rest_of_stays (RawLine.turns_of_significant?_none blank)) open?
  | case4 l rest found here opens ih =>
    have line := Line.isLexed_of_significant? scanned.isClosed scanned.shape here
    refine ih (scanned.rest_of_turns ((scanned.turns_iff here).mpr opens)) ?_
    have fresh : IsOpened (found, []) := ⟨line, opens, by simp⟩
    simpa using fresh
  | case5 l rest found here other ih =>
    have line := Line.isLexed_of_significant? scanned.isClosed scanned.shape here
    have below := scanned.rest_of_stays (scanned.stays here other)
    exact List.forall_mem_cons.mpr ⟨⟨line, other⟩, ih below open?⟩
  | case6 opening content l rest stays ih =>
    have front := open? _ rfl
    have inner := isVerbatim_of_closing?_none scanned.isClosed scanned.shape stays
    refine ih (scanned.rest_of_stays (RawLine.turns_of_closing?_none stays)) ?_
    have longer : IsOpened (opening, content ++ l.tokens) :=
      ⟨front.opening, front.fence, List.forall_mem_append.mpr ⟨front.content, inner⟩⟩
    simpa using longer
  | case7 opening content l rest indent fence more here ih =>
    have front := open? _ rfl
    have below := scanned.rest_of_turns (RawLine.turns_of_closing? here)
    have free := isFree_of_closing? scanned.shape here
    have whole : Block.IsLexed ⟨opening, content, some (indent, fence)⟩ :=
      ⟨front.opening, front.fence, front.content,
        by simpa using ⟨isPad_of_closing? here, (closing?_eq_some here).2.1⟩⟩
    refine List.forall_mem_cons.mpr ⟨whole, List.forall_mem_append.mpr ⟨?_, ih below (by simp)⟩⟩
    exact isLexed_behindFence free scanned.isClosed.ending

end Item

def TokenKind.isLoose (k : TokenKind) : Bool :=
  k.isFree || k = .pipe || k = .cell || k = .fence || k = .eol

namespace Line

lemma IsLexed.isLoose {l : Line} (lexed : l.IsLexed) (body : l.kind.isBody)
    (step : l.kind.isStep = false) (fence : l.kind ≠ .fence) : ∀ t ∈ l.tokens, t.kind.isLoose := by
  have free {k : TokenKind} (h : k.isFree ∨ k = .eol) : k.isLoose := by
    rcases h with h | h <;> simp [TokenKind.isLoose, h]
  by_cases bar : l.kind = .pipe
  · have parts := (lexed.row bar).1
    have part {k : TokenKind} (h : k.isRowPart) : k.isLoose := by
      cases k <;> first | rfl | cases h
    refine List.forall_mem_append.mpr ⟨List.forall_mem_cons.mpr ⟨?_, fun t ht => part (parts t ht)⟩,
      fun t ht => free (.inr (lexed.closed t (by simpa using ht)))⟩
    rw [show l.head.kind = .pipe from bar]
    rfl
  · have prose : l.kind.isProse := by
      cases kind : l.kind <;> simp_all [TokenKind.isBody, TokenKind.isProse, TokenKind.isKeyword,
        TokenKind.isHeader, TokenKind.isStep]
    exact fun t ht => free (lexed.prose prose t ht)

lemma IsLexed.isInner {l : Line} (lexed : l.IsLexed) : ∀ t ∈ l.tail, t.kind.isInner := by
  have shape : Lexeme.Shape false ((l.head :: l.tail).map Token.kind) := lexed.shape
  exact fun t ht => shape.isInner _ (List.mem_map_of_mem ht)

end Line

lemma Block.IsLexed.isLoose {b : Block} (lexed : b.IsLexed) : ∀ t ∈ b.tokens, t.kind.isLoose := by
  have verbatim {k : TokenKind} (h : k.isVerbatim) : k.isLoose := by
    cases k <;> first | rfl | cases h
  have pad {k : TokenKind} (h : k.isPad) : k.isLoose := by
    cases k <;> first | rfl | cases h
  have opening : ∀ t ∈ b.opening.tokens, t.kind.isLoose := by
    refine List.forall_mem_append.mpr ⟨List.forall_mem_cons.mpr ⟨?_, fun t ht => ?_⟩, fun t ht => ?_⟩
    · rw [show b.opening.head.kind = .fence from lexed.fence]
      rfl
    · exact verbatim (lexed.opening.fence lexed.fence t ht)
    · rw [lexed.opening.closed t (by simpa using ht)]
      rfl
  have content : ∀ t ∈ b.content, t.kind.isLoose := by
    intro t ht
    rcases lexed.content t ht with h | h
    · exact verbatim h
    · rw [h]
      rfl
  refine List.forall_mem_append.mpr ⟨List.forall_mem_append.mpr ⟨opening, content⟩, ?_⟩
  split
  case h_2 => simp
  case h_1 indent fence here =>
    obtain ⟨pads, kind⟩ := lexed.closing _ here
    refine List.forall_mem_append.mpr ⟨fun t ht => pad (pads t ht), ?_⟩
    have closing : fence.kind = .fence := kind
    simp [closing, TokenKind.isLoose]

structure Item.IsAside (i : Item) : Prop where
  body : i.kind.isBody
  other : ∀ l, i = line l → l.kind.isStep = false

namespace Item

lemma IsLexed.isLoose {i : Item} (lexed : i.IsLexed) (aside : i.IsAside) :
    ∀ t ∈ i.tokens, t.kind.isLoose := by
  cases i with
  | line l => exact lexed.1.isLoose aside.body (aside.other l rfl) lexed.2
  | block b => exact Block.IsLexed.isLoose lexed

lemma IsLexed.isHeader_of_mem {i : Item} (lexed : i.IsLexed) :
    ∃ rest, i.tokens = i.head :: rest ∧ ∀ t ∈ rest, t.kind.isHeader = false := by
  cases i with
  | line l =>
    refine ⟨l.tail ++ l.ending.toList, rfl, List.forall_mem_append.mpr ⟨fun t ht => ?_, ?_⟩⟩
    · have inner := lexed.1.isInner t ht
      cases kind : t.kind <;> simp_all [TokenKind.isInner, TokenKind.isKeyword, TokenKind.isHeader]
    · intro t ht
      simp [lexed.1.closed t (by simpa using ht), TokenKind.isHeader]
  | block b =>
    have loose := Block.IsLexed.isLoose lexed
    rw [Block.tokens, Line.tokens, List.cons_append, List.cons_append, List.cons_append] at loose
    refine ⟨_, rfl, fun t ht => ?_⟩
    have here := (List.forall_mem_cons.mp loose).2 t ht
    cases kind : t.kind <;> simp_all [TokenKind.isLoose, TokenKind.isFree, TokenKind.isPad,
      TokenKind.isLiteral, TokenKind.isHeader]

end Item

end FeatureFile
