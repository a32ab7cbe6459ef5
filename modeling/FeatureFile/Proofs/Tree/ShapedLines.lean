import FeatureFile.Proofs.Tree.Leaves
import FeatureFile.Proofs.Tree.Shape

namespace FeatureFile

open FeatureFile.Tree (leaf built Fits)

namespace Line

lemma fits_nameTree (keyword : Token) {rest : List Token}
    (parts : ∀ t ∈ rest, t.kind.isFree ∨ t.kind = .comment) :
    Fits (Shape.child .name) [nameTree keyword rest] := by
  refine .built _ (.star_map fun t ht => ?_)
  have kept := List.mem_filter.mp (Text.mem_of_mem_dropEnd ht)
  have word : t.kind ≠ .comment := by simpa using kept.2
  have free := (parts t ((List.dropWhile_suffix _).subset kept.1)).resolve_right word
  rw [nameChild]
  split
  case isTrue literal => exact .left (.built _ (.leaf literal))
  case isFalse other =>
    refine (Fits.leaf ?_).right
    simpa [TokenKind.isFree, other] using free

lemma fits_headerTrees {l : Line} {p : TokenKind → Bool} (lexed : l.IsLexed)
    (header : l.kind.isHeader) (kind : p l.kind) :
    Fits (Shape.token p * Shape.token (· = .colon) * Shape.child .name) l.headerTrees := by
  obtain ⟨c, rest, tail, colon, free⟩ := lexed.header header
  rw [headerTrees, tail]
  simp only [colon, if_true]
  have front := (Fits.leaf kind).mul (Fits.leaf (p := (· = .colon)) (by simpa using colon))
  exact front.mul (fits_nameTree c fun t ht => .inl (free t ht))

end Line

namespace TagPart

def IsFormed : TagPart → Prop
  | tag sign name => sign.kind = .atSign ∧ ∀ t ∈ name, t.kind = .text
  | stray t => t.kind = .text

lemma isFormed_ofTokens (signed : Bool) {ts : List Token}
    (parts : ∀ t ∈ ts, t.kind = .atSign ∨ t.kind = .text ∨ t.kind.isTrivia) :
    ∀ p ∈ ofTokens signed ts, p.IsFormed := by
  induction ts generalizing signed with
  | nil => simp [ofTokens]
  | cons t ts ih =>
    obtain ⟨first, others⟩ := List.forall_mem_cons.mp parts
    rw [ofTokens]
    split
    case isTrue sign =>
      refine List.forall_mem_cons.mpr ⟨⟨sign, fun n hn => ?_⟩, ih true others⟩
      exact of_decide_eq_true (Option.mem_filter_iff.mp hn).2
    case isFalse other =>
      split
      case isTrue => exact ih false others
      case isFalse stray =>
        have text : t.kind = .text := by simp_all
        exact List.forall_mem_cons.mpr ⟨text, ih false others⟩

lemma fits_tag {sign : Token} {name : Option Token} (kind : sign.kind = .atSign)
    (named : ∀ t ∈ name, t.kind = .text) : Fits (Shape.child .tag) [(tag sign name).tree] := by
  have front : Fits (Shape.token (· = .atSign)) [leaf sign] := .leaf (by simpa using kind)
  cases name with
  | none => exact .node _ (front.mul .opt_nil)
  | some t => exact .built _ (front.mul (.opt (.leaf (by simpa using named t rfl))))

lemma fits_tree {p : TagPart} (formed : p.IsFormed) :
    Fits (Shape.child .tag + Shape.token (· = .text)) [p.tree] := by
  cases p with
  | stray t => exact .right (.leaf (decide_eq_true formed))
  | tag sign name => exact .left (fits_tag formed.1 formed.2)

end TagPart

namespace Line

lemma isFormed_of_mem_tagParts {l : Line} (lexed : l.IsLexed) (sign : l.kind = .atSign) :
    ∀ p ∈ l.tagParts, p.IsFormed := by
  have head : l.head.kind = .atSign := sign
  have shape := lexed.shape
  rw [List.map_cons, head] at shape
  refine TagPart.isFormed_ofTokens false (List.forall_mem_cons.mpr ⟨.inl head, fun t ht => ?_⟩)
  exact shape.of_atSign _ (List.mem_map_of_mem ht)

lemma fits_tagTrees {ls : List Line} (lexed : ∀ l ∈ ls, l.IsLexed)
    (signs : ∀ l ∈ ls, l.kind = .atSign) :
    Fits (Shape.opt (Shape.child .tags)) (tagTrees ls) := by
  cases ls with
  | nil => exact .opt_nil
  | cons l rest =>
    have formed : ∀ p ∈ (l :: rest).flatMap tagParts, p.IsFormed := by
      intro p hp
      obtain ⟨l', hl, hp⟩ := List.mem_flatMap.mp hp
      exact isFormed_of_mem_tagParts (lexed l' hl) (signs l' hl) p hp
    -- A tag line begins with a sign, so a tag comes first.
    have head : l.head.kind = .atSign := signs l List.mem_cons_self
    have front : l.tagParts =
        .tag l.head (TagPart.name? l.tail) :: TagPart.ofTokens true l.tail := by
      rw [tagParts, TagPart.ofTokens, if_pos head]
    have parts : (l :: rest).flatMap tagParts = .tag l.head (TagPart.name? l.tail) ::
        (TagPart.ofTokens true l.tail ++ rest.flatMap tagParts) := by
      rw [List.flatMap_cons, front, List.cons_append]
    rw [tagTrees, parts]
    rw [parts] at formed
    obtain ⟨first, others⟩ := List.forall_mem_cons.mp formed
    have more := Fits.star_map fun p hp => TagPart.fits_tree (others p hp)
    exact .opt (.node _ ((TagPart.fits_tag first.1 first.2).mul more))

end Line

namespace RowPart

structure IsGroup (ts : List Token) : Prop where
  bar : ∃ t rest, ts = t :: rest ∧ t.kind = .pipe ∧ ∀ u ∈ rest, u.kind.isPad ∨ u.kind = .cell
  apart : Lexeme.IsApart (ts.map Token.kind)

lemma isPad_behind_cell {c : Token} {ts : List Token} (cell : c.kind = .cell)
    (parts : ∀ t ∈ ts, t.kind.isPad ∨ t.kind = .cell)
    (apart : Lexeme.IsApart ((c :: ts).map Token.kind)) : ∀ t ∈ ts, t.kind.isPad := by
  have word : c.kind.isPad = false := by simp [cell, TokenKind.isPad]
  rw [Lexeme.IsApart, List.map_cons, List.filter_cons_of_pos (by simp [word]),
    List.isChain_cons] at apart
  intro t ht
  by_contra content
  -- The first token behind that is not padding would be a cell next to this one.
  have some : (ts.map Token.kind).filter (!·.isPad) ≠ [] :=
    List.ne_nil_of_mem (List.mem_filter.mpr ⟨List.mem_map_of_mem ht, by simpa using content⟩)
  obtain ⟨k, ks, whole⟩ := List.exists_cons_of_ne_nil some
  have first : k ∈ (ts.map Token.kind).filter (!·.isPad) := whole ▸ List.mem_cons_self
  obtain ⟨mem, other⟩ := List.mem_filter.mp first
  obtain ⟨u, hu, rfl⟩ := List.mem_map.mp mem
  have next : u.kind = .cell := (parts u hu).resolve_left (by simpa using other)
  exact apart.1 u.kind (by simp [whole]) cell next

lemma cases_of_isApart {ts : List Token} (parts : ∀ t ∈ ts, t.kind.isPad ∨ t.kind = .cell)
    (apart : Lexeme.IsApart (ts.map Token.kind)) :
    (∀ t ∈ ts, t.kind.isPad) ∨ ∃ before c after, ts = before ++ c :: after ∧
      (∀ t ∈ before, t.kind.isPad) ∧ c.kind = .cell ∧ ∀ t ∈ after, t.kind.isPad := by
  induction ts with
  | nil => exact .inl (by simp)
  | cons t ts ih =>
    obtain ⟨first, others⟩ := List.forall_mem_cons.mp parts
    rcases first with pad | cell
    · have rest : Lexeme.IsApart (ts.map Token.kind) := by
        simpa [Lexeme.IsApart, pad] using apart
      rcases ih others rest with all | ⟨before, c, after, rfl, padded, kind, behind⟩
      · exact .inl (List.forall_mem_cons.mpr ⟨pad, all⟩)
      · exact .inr ⟨t :: before, c, after, rfl, List.forall_mem_cons.mpr ⟨pad, padded⟩, kind,
          behind⟩
    · exact .inr ⟨[], t, ts, rfl, by simp, cell, isPad_behind_cell cell others apart⟩

lemma fits_pads {ts : List Token} (h : ∀ t ∈ ts, t.kind.isPad) :
    Fits (.star (Shape.token (·.isPad))) (ts.map cellChild) := by
  refine .star_map fun t ht => ?_
  have other : t.kind ≠ .cell := by
    intro cell
    simpa [cell, TokenKind.isPad] using h t ht
  rw [cellChild, if_neg other]
  exact .leaf (h t ht)

lemma fits_cell {ts : List Token} (anchor : Mark) (group : IsGroup ts) :
    Fits (Shape.child .tableCell) [tree anchor (cell ts)] := by
  obtain ⟨⟨t, rest, rfl, bar, parts⟩, apart⟩ := group
  have front : Fits (Shape.token (· = .pipe)) [cellChild t] := by
    rw [cellChild, if_neg (by simp [bar])]
    exact .leaf (by simpa using bar)
  have inner : Lexeme.IsApart (rest.map Token.kind) := by
    have drop := List.suffix_cons t.kind (rest.map Token.kind)
    exact apart.suffix (drop.filter _)
  refine .built anchor ?_
  rcases cases_of_isApart parts inner with all | ⟨before, c, after, rfl, padded, kind, behind⟩
  · simpa [Rule.shape] using (front.mul (fits_pads all)).mul .opt_nil
  · have value : Fits (Shape.child .tableCellValue) [cellChild c] := by
      rw [cellChild, if_pos kind]
      exact .built _ (.leaf (by simpa using kind))
    simpa [Rule.shape] using (front.mul (fits_pads padded)).mul (value.mul (fits_pads behind)).opt

lemma ofGroups_eq (groups : List (List Token)) :
    ∃ (cells : List (List Token)) (last : List Token),
      ofGroups groups = cells.map cell ++ last.map loose ∧ (∀ g ∈ cells, g ∈ groups) ∧
      (last = [] ∨ last ∈ groups ∧ ∀ t ∈ last, t.kind ≠ .cell) := by
  fun_induction ofGroups groups with
  | case1 => exact ⟨[], [], rfl, by simp, .inl rfl⟩
  | case2 last content => exact ⟨[last], [], rfl, by simp, .inl rfl⟩
  | case3 last empty =>
    refine ⟨[], last, rfl, by simp, .inr ⟨by simp, fun t ht cell => empty ?_⟩⟩
    simpa using ⟨t, ht, cell⟩
  | case4 group rest _ ih =>
    obtain ⟨cells, last, whole, mem, open?⟩ := ih
    refine ⟨group :: cells, last, by simp [whole], ?_, ?_⟩
    · exact List.forall_mem_cons.mpr
        ⟨List.mem_cons_self, fun g hg => List.mem_cons_of_mem _ (mem g hg)⟩
    · exact open?.imp_right (And.imp_left (List.mem_cons_of_mem _))

lemma kind_of_mem_split {ts : List Token} : ∀ t ∈ (split ts).1, t.kind ≠ .pipe := by
  induction ts with
  | nil => simp [split]
  | cons t ts ih =>
    by_cases bar : t.kind = .pipe
    · simp [split, bar]
    · simpa [split, bar] using ih

lemma isGroup_of_mem_split {ts : List Token} (parts : ∀ t ∈ ts, t.kind.isRowPart)
    (apart : Lexeme.IsApart (ts.map Token.kind)) : ∀ g ∈ (split ts).2, IsGroup g := by
  induction ts with
  | nil => simp [split]
  | cons t ts ih =>
    obtain ⟨-, others⟩ := List.forall_mem_cons.mp parts
    have below : Lexeme.IsApart (ts.map Token.kind) :=
      apart.suffix ((List.suffix_cons _ _).filter _)
    by_cases bar : t.kind = .pipe
    · have front : t :: (split ts).1 <+: t :: ts :=
        (List.prefix_cons_inj t).mpr ⟨_, split_append ts⟩
      have group : IsGroup (t :: (split ts).1) := by
        refine ⟨⟨t, _, rfl, bar, fun u hu => ?_⟩, apart.prefix ((front.map _).filter _)⟩
        have part := parts u (front.subset (List.mem_cons_of_mem _ hu))
        have inner := kind_of_mem_split u hu
        cases kind : u.kind <;> simp_all [TokenKind.isRowPart, TokenKind.isPad]
      simpa [split, bar] using ⟨group, ih others below⟩
    · simpa [split, bar] using ih others below

lemma fits_ofGroups (anchor : Mark) {groups : List (List Token)} (h : ∀ g ∈ groups, IsGroup g) :
    Fits Rule.tableRow.shape ((ofGroups groups).map (tree anchor)) := by
  obtain ⟨cells, last, whole, mem, behind⟩ := ofGroups_eq groups
  have front : Fits (.star (Shape.child .tableCell)) ((cells.map cell).map (tree anchor)) := by
    rw [List.map_map]
    exact .star_map fun g hg => fits_cell anchor (h g (mem g hg))
  have same : (last.map loose).map (tree anchor) = last.map leaf := by simp [tree]
  rw [whole, List.map_append, same]
  refine front.mul ?_
  rcases behind with rfl | ⟨mem, bare⟩
  · exact .opt_nil
  · obtain ⟨t, rest, rfl, bar, parts⟩ := (h last mem).bar
    have pads : ∀ u ∈ rest, u.kind.isPad := by
      intro u hu
      exact (parts u hu).resolve_right (bare u (List.mem_cons_of_mem _ hu))
    have first : Fits (Shape.token (· = .pipe)) [leaf t] := .leaf (by simpa using bar)
    exact (first.mul (.leaves pads)).opt

end RowPart

namespace Line

lemma fits_rowTree {l : Line} (lexed : l.IsLexed) (kind : l.kind = .pipe) :
    Fits (Shape.child .tableRow) [l.rowTree] := by
  have bar : l.head.kind = .pipe := kind
  obtain ⟨parts, apart⟩ := lexed.row kind
  have whole : ∀ t ∈ l.head :: l.tail, t.kind.isRowPart :=
    List.forall_mem_cons.mpr ⟨by simp [bar, TokenKind.isRowPart], parts⟩
  have apart' : Lexeme.IsApart ((l.head :: l.tail).map Token.kind) := by
    rw [Lexeme.IsApart, List.map_cons, bar]
    exact List.isChain_cons.mpr ⟨by rintro _ _ ⟨⟩, apart⟩
  have groups : l.rowParts = RowPart.ofGroups (RowPart.split (l.head :: l.tail)).2 := by
    simp [rowParts, RowPart.split, bar]
  refine .built _ ?_
  rw [groups]
  exact RowPart.fits_ofGroups _ (RowPart.isGroup_of_mem_split whole apart')

lemma fits_tableTrees {ls : List Line} (lexed : ∀ l ∈ ls, l.IsLexed)
    (bars : ∀ l ∈ ls, l.kind = .pipe) : Fits (Shape.opt (Shape.child .table)) (tableTrees ls) := by
  cases ls with
  | nil => exact .opt_nil
  | cons l rest =>
    obtain ⟨first, others⟩ := List.forall_mem_cons.mp lexed
    obtain ⟨bar, bars⟩ := List.forall_mem_cons.mp bars
    have head : Fits (Shape.child .tableHead) [built .tableHead l.start [l.rowTree]] :=
      .built _ (fits_rowTree first bar)
    have rows : Fits (Shape.child .tableRows) [built .tableRows l.stop (rest.map rowTree)] :=
      .built _ (.star_map fun l' hl => fits_rowTree (others l' hl) (bars l' hl))
    exact .opt (.built _ (head.mul rows))

end Line

lemma Block.fits_tree {b : Block} (lexed : b.IsLexed) :
    Fits (Shape.child .docStrings) [b.tree] := by
  have head : Fits (Shape.token (· = .fence)) [leaf b.opening.head] :=
    .leaf (decide_eq_true lexed.fence)
  have words := Fits.leaves (lexed.opening.fence lexed.fence)
  have ending : Fits (Shape.opt (Shape.token (· = .eol))) (b.opening.ending.toList.map leaf) :=
    .opt_map fun t ht => .leaf (decide_eq_true (lexed.opening.closed t ht))
  have value : Fits (Shape.child .docStringsValue)
      [built .docStringsValue b.opening.stop (b.content.map leaf)] :=
    .built _ (.leaves fun t ht => by simpa using lexed.content t ht)
  have closing : Fits (Shape.opt Shape.closing) b.closingTrees := by
    rw [closingTrees]
    split
    case h_1 => exact .opt_nil
    case h_2 indent fence here =>
      obtain ⟨pads, kind⟩ := lexed.closing _ here
      rw [List.map_append]
      exact ((Fits.leaves pads).mul (.leaf (decide_eq_true kind))).opt
  refine .node _ ?_
  simpa [Rule.shape, Line.tokenTrees, Line.tokens] using
    (((head.mul words).mul ending).mul value).mul closing

end FeatureFile
