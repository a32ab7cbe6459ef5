import FeatureFile.Proofs.Descent.Gives

namespace FeatureFile

open Ahead (current peek peek_eq_current)

namespace Reader

variable {eof : Token} {front left : List Token}

lemma read_bump {t : Token} (inner : t.kind ≠ .eof) : bump.read (t :: left) = (some t, left) :=
  if_neg inner

lemma read_onlyIf {α : Type} {look : List Token → Bool} (x : Reader (Option α)) (here : look left) :
    (onlyIf look x).read left = x.read left := by
  rw [onlyIf, read_bind, read_ask, if_pos here]

lemma read_onlyIf_not {α : Type} {look : List Token → Bool} (x : Reader (Option α))
    (other : look left = false) : (onlyIf look x).read left = (none, left) := by
  rw [onlyIf, read_bind, read_ask, if_neg (Bool.eq_false_iff.mp other), read_pure]

lemma read_bumpIf {kind : TokenKind} (inner : kind ≠ .eof) {t : Token} (here : t.kind = kind) :
    (bumpIf kind).read (t :: left) = (some t, left) := by
  rw [bumpIf, read_onlyIf _ (decide_eq_true here), read_bump (here ▸ inner)]

lemma read_bumpIf_of_ne {kind : TokenKind} (other : current left ≠ kind) :
    (bumpIf kind).read left = (none, left) :=
  read_onlyIf_not _ (decide_eq_false other)

lemma split_append {α : Type} {p : α → Bool} {front left : List α} (all : ∀ a ∈ front, p a)
    (stop : ∀ a ∈ left.head?, p a = false) :
    (front ++ left).takeWhile p = front ∧ (front ++ left).dropWhile p = left := by
  rw [List.takeWhile_append_of_pos all, List.dropWhile_append_of_pos all]
  cases left with
  | nil => simp
  | cons a left => simp [stop a rfl]

lemma split_kinds_append {kinds : TokenKind → Bool} (all : ∀ t ∈ front, kinds t.kind)
    (stop : kinds (current left) = false) :
    (front ++ left).takeWhile (kinds ·.kind) = front ∧
      (front ++ left).dropWhile (kinds ·.kind) = left := by
  refine split_append all fun t ht => ?_
  rwa [current, Option.mem_def.mp ht] at stop

lemma read_bumpWhile_append (name : Repetition) {kinds : TokenKind → Bool}
    (inner : kinds .eof = false)
    (all : ∀ t ∈ front, kinds t.kind) (stop : kinds (current left) = false) :
    (bumpWhile name kinds inner).run.read (front ++ left) = (front.map some, left) := by
  obtain ⟨taken, dropped⟩ := split_kinds_append all stop
  rw [read_bumpWhile, taken, dropped]

lemma reduceOption_map_some {α : Type} (as : List α) : (as.map some).reduceOption = as := by
  change (as.map some).filterMap id = as
  rw [List.filterMap_map]
  exact List.filterMap_some

lemma isInline_current {ending : Option Token} (closed : ∀ t ∈ ending, t.kind = .eol)
    (last : ending = none → current left = .eof) :
    isInline (current (ending.toList ++ left)) = false := by
  cases ending with
  | some eol =>
    change isInline eol.kind = false
    rw [closed eol rfl]
    rfl
  | none =>
    change isInline (current left) = false
    rw [last rfl]
    rfl

lemma filter_head?_eq_ending {ending : Option Token} (closed : ∀ t ∈ ending, t.kind = .eol)
    (last : ending = none → current left = .eof) :
    (ending.toList ++ left).head?.filter (·.kind = .eol) = ending := by
  cases ending with
  | some eol => simp [closed eol rfl]
  | none =>
    have kind := last rfl
    cases left with
    | nil => rfl
    | cons t left =>
      have other : t.kind = .eof := kind
      simp [other]

lemma read_restOfLine {ending : Option Token} (inline : ∀ t ∈ front, isInline t.kind)
    (closed : ∀ t ∈ ending, t.kind = .eol) (last : ending = none → current left = .eof) :
    restOfLine.read (front ++ (ending.toList ++ left)) = ((front, ending), left) := by
  rw [restOfLine, read_bind, read_bumpWhile_append _ _ inline (isInline_current closed last),
    read_bind]
  dsimp only
  rw [reduceOption_map_some]
  cases ending with
  | some eol =>
    rw [Option.toList_some, List.singleton_append, read_bumpIf (by decide) (closed eol rfl)]
    rfl
  | none =>
    have other : current left ≠ .eol := by simp [last rfl]
    rw [Option.toList_none, List.nil_append, read_bumpIf_of_ne other]
    rfl

lemma read_line {l : Line} (whole : l.IsWhole) (last : l.ending = none → current left = .eof) :
    line.read (l.tokens ++ left) = (some l, left) := by
  obtain ⟨first, others⟩ := List.forall_mem_cons.mp whole.inline
  have inner : l.head.kind ≠ .eof := by
    intro eof
    rw [eof] at first
    cases first
  rw [line, read_bind, Line.tokens, List.append_assoc, List.cons_append, read_bump inner,
    read_bind]
  dsimp only
  rw [read_restOfLine others whole.closed last]
  rfl

variable {l : Line} {items rest : List Item}

lemma gives_nextLine : nextLine.Gives eof (.line l :: items) (some l) items := by
  rintro left (_ | ⟨whole, lexed, -, ends, below⟩)
  rw [nextLine, read_afterTrivia, whole, read_line lexed.isWhole ends]
  exact ⟨rfl, below⟩

lemma gives_lines {loop : Loop (Option Line)} {kinds : TokenKind → Bool}
    (inner : kinds .eof = false) (other : kinds .fence = false) (goes : ∀ left, loop.goes left = kinds (peek left))
    (body : ∀ l items, loop.body.Gives eof (.line l :: items) (some l) items) (items : List Item) :
    loop.run.Gives eof items ((Item.takeLines kinds items).1.map some)
      (Item.takeLines kinds items).2 := by
  refine .of_isLexed fun lexed => ?_
  induction items with
  | nil => exact Loop.gives_of_stops fun left here => by simp [goes, here.peek, inner]
  | cons i items ih =>
    obtain ⟨first, others⟩ := List.forall_mem_cons.mp lexed
    cases i with
    | block b =>
      refine Loop.gives_of_stops fun left here => ?_
      simp [goes, here.peek, Item.nextKind_block first, other]
    | line l =>
      cases wanted : kinds l.kind with
      | false =>
        simp only [Item.takeLines, wanted]
        exact Loop.gives_of_stops fun left here => by simp [goes, here.peek, wanted]
      | true =>
        simp only [Item.takeLines, wanted, if_true]
        exact Loop.gives_of_goes (fun left here => by simp [goes, here.peek, wanted]) (body l items)
          (ih others)

lemma gives_description (items : List Item) :
    description.run.Gives eof items ((Item.takeLines TokenKind.isProse items).1.map some)
      (Item.takeLines TokenKind.isProse items).2 :=
  gives_lines rfl rfl (fun _ => rfl) (fun _ _ => gives_nextLine) items

lemma gives_rows (items : List Item) :
    rows.run.Gives eof items ((Step.takeRows items).1.map some) (Step.takeRows items).2 :=
  gives_lines rfl rfl (fun _ => rfl) (fun _ _ => gives_nextLine) items

lemma append_of_tagPart {t : Token} (inline : isInline t.kind) (left : List Token) :
    ∃ taken, t :: left = taken ++ (tagPart.read (t :: left)).2 ∧
      (tagPart.read (t :: left)).1 = taken ∧ ∀ u ∈ taken, isInline u.kind := by
  have inner : t.kind ≠ .eof := by
    intro eof
    rw [eof] at inline
    cases inline
  rw [tagPart, read_bind, read_bump inner]
  dsimp only
  by_cases sign : t.kind = .atSign
  · rw [if_pos (by simpa using sign)]
    by_cases name : current left = .text
    · cases left with
      | nil => cases name
      | cons u left =>
        rw [read_bind, read_bumpIf (by decide) name]
        refine ⟨[t, u], rfl, rfl, ?_⟩
        have text : u.kind = .text := name
        simpa [text] using ⟨inline, rfl⟩
    · rw [read_bind, read_bumpIf_of_ne name]
      exact ⟨[t], rfl, rfl, by simpa using inline⟩
  · rw [if_neg (by simpa using sign)]
    exact ⟨[t], rfl, rfl, by simpa using inline⟩

lemma read_tagParts (left : List Token) :
    (tagParts.run.read left).1.flatten = left.takeWhile (isInline ·.kind) ∧
      (tagParts.run.read left).2 = left.dropWhile (isInline ·.kind) := by
  change (tagParts.readAll left).1.flatten = _ ∧ (tagParts.readAll left).2 = _
  induction left using Loop.readAll.induct tagParts with
  | case1 left goes ih =>
    rw [Loop.readAll_of_goes _ goes]
    cases left with
    | nil => cases goes
    | cons t left =>
      obtain ⟨taken, whole, parts, inline⟩ := append_of_tagPart goes left
      change _ ++ List.flatten _ = _ ∧ _
      rw [ih.1, ih.2]
      change (tagPart.read (t :: left)).1 ++ List.takeWhile _ (tagPart.read (t :: left)).2 = _ ∧
        List.dropWhile _ (tagPart.read (t :: left)).2 = _
      generalize (tagPart.read (t :: left)).2 = rest at whole
      rw [parts, whole, List.takeWhile_append_of_pos inline, List.dropWhile_append_of_pos inline]
      exact ⟨rfl, rfl⟩
  | case2 left stops =>
    rw [Loop.readAll_of_stops _ (Bool.eq_false_iff.mpr stops)]
    cases left with
    | nil => exact ⟨rfl, rfl⟩
    | cons t left =>
      have first : isInline t.kind = false := Bool.eq_false_iff.mpr stops
      simp [first]

lemma gives_tagLine : tagLine.Gives eof (.line l :: items) (some l) items := by
  intro left here
  obtain _ | @⟨_, more, _, _, whole, lexed, -, ends, below⟩ := here
  have stop := isInline_current lexed.closed ends
  obtain ⟨taken, dropped⟩ := split_kinds_append lexed.isWhole.inline stop
  obtain ⟨parts, rest⟩ := read_tagParts (l.head :: l.tail ++ (l.ending.toList ++ more))
  rw [taken] at parts
  rw [dropped] at rest
  rw [tagLine, read_bind, read_afterTrivia, whole, Line.tokens, List.append_assoc, rest, parts]
  refine ⟨?_, below.append fun t ht => ?_⟩
  · dsimp only [read_bind, read_ask, read_pure]
    rw [filter_head?_eq_ending lexed.closed ends]
    rfl
  · rw [lexed.closed t (by simpa using ht)]
    rfl

lemma gives_tags (items : List Item) :
    tags.run.Gives eof items ((Item.takeLines (· = .atSign) items).1.map some)
      (Item.takeLines (· = .atSign) items).2 :=
  gives_lines rfl rfl (fun _ => rfl) (fun _ _ => gives_tagLine) items

lemma holds_finishLine (h : Holds eof left items) : Holds eof (finishLine.read left).2 items := by
  have pads : ∀ t ∈ left.takeWhile (·.kind.isPad), t.kind.isTrivia := fun t ht =>
    TokenKind.isTrivia_of_isPad (List.mem_takeWhile_imp (p := fun t : Token => t.kind.isPad) ht)
  have cut : left = left.takeWhile (·.kind.isPad) ++ left.dropWhile (·.kind.isPad) :=
    List.takeWhile_append_dropWhile.symm
  rw [cut] at h
  have below := h.of_append pads
  rw [finishLine, read_bind, padding, read_bumpWhile]
  dsimp only
  generalize left.dropWhile (·.kind.isPad) = rest at below
  by_cases eol : current rest = .eol
  · cases rest with
    | nil => cases eol
    | cons t rest =>
      have kind : t.kind = .eol := eol
      have trivia : ∀ u ∈ [t], u.kind.isTrivia := by simp [kind, TokenKind.isTrivia]
      rw [read_bumpIf (by decide) kind]
      exact Holds.of_append trivia below
  · rw [read_bumpIf_of_ne eol]
    exact below

end Reader

namespace Block

def inner (b : Block) : List Token :=
  b.content ++ ((b.closing.map Prod.fst).getD [])

def fence? (b : Block) : Option Token :=
  b.closing.map Prod.snd

variable {b : Block}

lemma tokens_eq (b : Block) : b.tokens = b.opening.tokens ++ (b.inner ++ b.fence?.toList) := by
  obtain ⟨opening, content, _ | ⟨indent, fence⟩⟩ := b <;> simp [tokens, inner, fence?]

lemma IsLexed.unfenced (lexed : b.IsLexed) : ∀ t ∈ b.inner, t.kind ≠ .fence ∧ t.kind ≠ .eof := by
  refine List.forall_mem_append.mpr ⟨fun t ht => ?_, fun t ht => ?_⟩
  · rcases lexed.content t ht with verbatim | eol
    · cases kind : t.kind <;> simp_all [TokenKind.isVerbatim, TokenKind.isPad]
    · simp [eol]
  · cases closing : b.closing with
    | none => simp [closing] at ht
    | some c =>
      have pad := (lexed.closing c closing).1 t (by simpa [closing] using ht)
      cases kind : t.kind <;> simp_all [TokenKind.isPad]

lemma IsLexed.unfenced_opening (lexed : b.IsLexed) :
    ∀ t ∈ b.opening.tail ++ b.opening.ending.toList, t.kind ≠ .fence ∧ t.kind ≠ .eof := by
  refine List.forall_mem_append.mpr ⟨fun t ht => ?_, fun t ht => ?_⟩
  · have inner := lexed.opening.isInner t ht
    cases kind : t.kind <;> simp_all [TokenKind.isInner]
  · simp [lexed.opening.closed t (by simpa using ht)]

lemma enclose_inner (lexed : b.IsLexed)
    (content : b.closing ≠ none → ∀ t ∈ b.content.getLast?, t.kind = .eol) :
    enclose b.opening b.inner b.fence? = b := by
  obtain ⟨opening, content', _ | ⟨indent, fence⟩⟩ := b
  · simp [enclose, inner, fence?]
  · have pads : ∀ t ∈ indent.reverse, t.kind.isPad := fun t ht =>
      (lexed.closing _ rfl).1 t (List.mem_reverse.mp ht)
    have stop : ∀ t ∈ content'.reverse.head?, t.kind.isPad = false := by
      intro t ht
      rw [content (by simp) t (List.head?_reverse ▸ ht)]
      rfl
    obtain ⟨taken, dropped⟩ := Reader.split_append pads stop
    have whole : (content' ++ indent).reverse = indent.reverse ++ content'.reverse :=
      List.reverse_append
    change Block.mk opening (List.dropWhile _ (content' ++ indent).reverse).reverse
      (some ((List.takeWhile _ (content' ++ indent).reverse).reverse, fence)) = _
    rw [whole, taken, dropped, List.reverse_reverse, List.reverse_reverse]

lemma ofFence_inner (lexed : b.IsLexed)
    (opening : b.opening.ending = none → b.content = [] ∧ b.closing = none)
    (content : b.closing ≠ none → ∀ t ∈ b.content.getLast?, t.kind = .eol) :
    ofFence b.opening.head (b.opening.tail ++ (b.opening.ending.toList ++ b.inner)) b.fence? =
      b := by
  have none : b.opening.ending = none → b.inner = [] := by
    intro ends
    simp [inner, opening ends]
  have stop : Reader.isInline (current (b.opening.ending.toList ++ b.inner)) = false :=
    Reader.isInline_current lexed.opening.closed fun ends => by rw [none ends]; rfl
  obtain ⟨taken, dropped⟩ := Reader.split_kinds_append
    (fun t ht => lexed.opening.isWhole.inline t (List.mem_cons_of_mem _ ht)) stop
  have split : (b.opening.ending.toList ++ b.inner).head? = b.opening.ending ∧
      (b.opening.ending.toList ++ b.inner).tail = b.inner := by
    cases ends : b.opening.ending with
    | none => simp [none ends]
    | some eol => simp
  rw [ofFence, taken, dropped, split.1, split.2]
  exact enclose_inner lexed content

end Block

namespace Reader

variable {eof : Token} {left : List Token} {items : List Item} {b : Block}

lemma read_untilFence {front : List Token} (unfenced : ∀ t ∈ front, t.kind ≠ .fence ∧ t.kind ≠ .eof)
    (lexed : b.IsLexed) (last : b.closing = none → current left = .eof) :
    untilFence.run.read (front ++ (b.fence?.toList ++ left)) =
      (front.map some, b.fence?.toList ++ left) := by
  refine read_bumpWhile_append _ _ (fun t ht => by simpa using unfenced t ht) ?_
  cases closing : b.closing with
  | none => simp [Block.fence?, closing, last closing]
  | some c => simp [Block.fence?, closing, current, (lexed.closing c closing).2]

lemma read_fence? (lexed : b.IsLexed) (last : b.closing = none → current left = .eof) :
    (bumpIf .fence).read (b.fence?.toList ++ left) = (b.fence?, left) := by
  cases closing : b.closing with
  | none =>
    have other : current left ≠ .fence := by simp [last closing]
    simpa [Block.fence?, closing] using read_bumpIf_of_ne other
  | some c =>
    simpa [Block.fence?, closing] using read_bumpIf (by decide) (lexed.closing c closing).2

lemma read_opening (lexed : b.IsLexed)
    (opening : b.opening.ending = none → b.content = [] ∧ b.closing = none)
    (last : b.closing = none → current left = .eof) :
    line.read (b.tokens ++ left) = (some b.opening, b.inner ++ (b.fence?.toList ++ left)) := by
  rw [b.tokens_eq, List.append_assoc, List.append_assoc]
  refine read_line lexed.opening.isWhole fun ends => ?_
  simp [Block.inner, Block.fence?, opening ends, last (opening ends).2]

lemma gives_docString : docString.Gives eof (.block b :: items) (some b) items := by
  intro left here
  obtain _ | _ | @⟨_, more, _, _, whole, lexed, opening, content, ends, below⟩ := here
  rw [docString, read_bind, nextLine, read_afterTrivia, whole, read_opening lexed opening ends,
    read_bind]
  dsimp only
  rw [read_untilFence lexed.unfenced lexed ends, read_bind, closingFence, read_bind,
    read_fence? lexed ends, reduceOption_map_some]
  have same := congrArg some (Block.enclose_inner lexed content)
  cases fence : b.fence? with
  | none =>
    rw [fence] at same
    exact ⟨same, below⟩
  | some t =>
    rw [fence] at same
    exact ⟨same, holds_finishLine below⟩

lemma gives_strayDocString :
    (afterTrivia strayDocString).Gives eof (.block b :: items) (some b) items := by
  intro left here
  obtain _ | _ | @⟨_, more, _, _, whole, lexed, opening, content, ends, below⟩ := here
  have fence : b.opening.head.kind = .fence := lexed.fence
  have cut : b.tokens ++ more =
      b.opening.head :: ((b.opening.tail ++ b.opening.ending.toList ++ b.inner) ++
        (b.fence?.toList ++ more)) := by
    simp [b.tokens_eq, Line.tokens]
  have unfenced := List.forall_mem_append.mpr ⟨lexed.unfenced_opening, lexed.unfenced⟩
  rw [read_afterTrivia, whole, cut, strayDocString, read_bind, read_bump (by simp [fence]),
    read_bind]
  dsimp only
  rw [read_untilFence unfenced lexed ends, read_bind, read_fence? lexed ends,
    reduceOption_map_some, List.append_assoc]
  exact ⟨congrArg some (Block.ofFence_inner lexed opening content), below⟩

lemma gives_nextItem (i : Item) (items : List Item) :
    nextItem.Gives eof (i :: items) (some i) items := by
  intro left here
  have kind := here.peek
  rw [peek_eq_current] at kind
  cases i with
  | line l =>
    obtain ⟨-, plain⟩ := here.isLexed _ List.mem_cons_self
    obtain ⟨found, below⟩ := gives_nextLine left here
    rw [nextLine, read_afterTrivia] at found below
    rw [nextItem, read_afterTrivia, item, read_bind, read_ask]
    dsimp only
    rw [if_neg (by rw [kind]; exact plain), read_bind, found]
    exact ⟨rfl, below⟩
  | block b =>
    have lexed : b.IsLexed := here.isLexed _ List.mem_cons_self
    obtain ⟨found, below⟩ := gives_strayDocString left here
    rw [read_afterTrivia] at found below
    rw [nextItem, read_afterTrivia, item, read_bind, read_ask]
    dsimp only
    rw [if_pos (by rw [kind]; exact lexed.fence), read_bind, found]
    exact ⟨rfl, below⟩

end Reader

end FeatureFile
