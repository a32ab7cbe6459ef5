import FeatureFile.Proofs.Document.Written
import FeatureFile.Proofs.Tree.Tables

namespace FeatureFile

open FeatureFile.Tree (leaf built)
open Text (IsLineEnd dropEnd isBreak isPad)

lemma Text.dropEnd_append_of_pos {p : Char → Bool} {text pads : List Char}
    (ends : ∀ c ∈ text.getLast?, p c = false) (all : ∀ c ∈ pads, p c) :
    dropEnd p (text ++ pads) = text := by
  induction text with
  | nil =>
    induction pads with
    | nil => rfl
    | cons c pads ih =>
      obtain ⟨first, others⟩ := List.forall_mem_cons.mp all
      rw [List.nil_append] at ih ⊢
      rw [dropEnd, ih others]
      exact if_pos first
  | cons c text ih =>
    rw [List.cons_append, dropEnd]
    cases text with
    | nil =>
      rw [ih (by simp)]
      exact if_neg (by simpa using ends)
    | cons d text =>
      rw [ih (by simpa using ends)]

namespace Cell

def escapeChar (c : Char) : List Char :=
  if c = '\\' then ['\\', '\\']
  else if c = '|' then ['\\', '|']
  else if c = '\n' then ['\\', 'n']
  else [c]

def escape (value : List Char) : List Char :=
  value.flatMap escapeChar

lemma escapeChar_cases {motive : Char → List Char → Prop} (backslash : motive '\\' ['\\', '\\'])
    (bar : motive '|' ['\\', '|']) (feed : motive '\n' ['\\', 'n'])
    (plain : ∀ c, c ≠ '\\' → c ≠ '|' → c ≠ '\n' → motive c [c]) (c : Char) :
    motive c (escapeChar c) := by
  rw [escapeChar]
  split
  case isTrue same => exact same ▸ backslash
  split
  case isTrue same => exact same ▸ bar
  split
  case isTrue same => exact same ▸ feed
  case isFalse h h' h'' => exact plain c h h' h''

lemma unescape_cons {c : Char} (plain : c ≠ '\\') (rest : List Char) :
    unescape (c :: rest) = c :: unescape rest := by
  rw [unescape]
  rintro _ _ rfl
  exact absurd rfl plain

lemma unescape_escapeChar_append (c : Char) (rest : List Char) :
    unescape (escapeChar c ++ rest) = c :: unescape rest :=
  escapeChar_cases (motive := fun c text => unescape (text ++ rest) = c :: unescape rest) rfl rfl rfl
    (fun _ backslash _ _ => unescape_cons backslash rest) c

lemma unescape_escape (value : List Char) : unescape (escape value) = value := by
  induction value with
  | nil => rfl
  | cons c value ih => rw [escape, List.flatMap_cons, unescape_escapeChar_append, ← escape, ih]

lemma untilBar_escapeChar_append (c : Char) (rest : List Char) :
    Lexeme.untilBar false (escapeChar c ++ rest) =
      escapeChar c ++ Lexeme.untilBar false rest := by
  refine escapeChar_cases (motive := fun _ text =>
    Lexeme.untilBar false (text ++ rest) = text ++ Lexeme.untilBar false rest) rfl rfl rfl ?_ c
  intro c backslash bar _
  simp [Lexeme.untilBar, backslash, bar]

lemma untilBar_escape_append (value rest : List Char) :
    Lexeme.untilBar false (escape value ++ rest) =
      escape value ++ Lexeme.untilBar false rest := by
  induction value with
  | nil => rfl
  | cons c value ih =>
    rw [escape, List.flatMap_cons, List.append_assoc, untilBar_escapeChar_append, ← escape, ih,
      List.append_assoc]

lemma untilBar_pads_append {pads : List Char} (all : ∀ c ∈ pads, isPad c) (rest : List Char) :
    Lexeme.untilBar false (pads ++ '|' :: rest) = pads := by
  induction pads with
  | nil => rfl
  | cons c pads ih =>
    obtain ⟨first, others⟩ := List.forall_mem_cons.mp all
    rcases Text.isPad_iff.mp first with rfl | rfl <;> exact congrArg (List.cons _) (ih others)

lemma isBreak_of_mem_escape {value : List Char} (plain : '\r' ∉ value) :
    ∀ c ∈ escape value, isBreak c = false := by
  intro c hc
  obtain ⟨a, ha, hc⟩ := List.mem_flatMap.mp hc
  have other : a ≠ '\r' := by
    rintro rfl
    exact plain ha
  revert hc other
  refine escapeChar_cases (motive := fun a text => c ∈ text → a ≠ '\r' → isBreak c = false)
    ?_ ?_ ?_ ?_ a
  · simp +contextual [isBreak]
  · simp +contextual [isBreak, or_imp]
  · simp +contextual [isBreak, or_imp]
  · intro a _ _ feed hc carriage
    obtain rfl := List.mem_singleton.mp hc
    simp [isBreak, feed, carriage]

lemma ends_escapeChar {c : Char} (word : isPad c = false) :
    (∃ d text, escapeChar c = d :: text ∧ isPad d = false ∧ d ≠ '|') ∧
      ∃ d, (escapeChar c).getLast? = some d ∧ isPad d = false := by
  revert word
  refine escapeChar_cases (motive := fun c text => isPad c = false →
    (∃ d more, text = d :: more ∧ isPad d = false ∧ d ≠ '|') ∧
      ∃ d, text.getLast? = some d ∧ isPad d = false) ?_ ?_ ?_ ?_ c
  · exact fun _ => ⟨⟨_, _, rfl, rfl, by decide⟩, _, rfl, rfl⟩
  · exact fun _ => ⟨⟨_, _, rfl, rfl, by decide⟩, _, rfl, rfl⟩
  · exact fun _ => ⟨⟨_, _, rfl, rfl, by decide⟩, _, rfl, rfl⟩
  · exact fun c _ bar _ word => ⟨⟨c, [], rfl, word, bar⟩, c, rfl, word⟩

lemma exists_escape_cons {c : Char} (value : List Char) (word : isPad c = false) :
    ∃ d text, escape (c :: value) = d :: text ∧ isPad d = false ∧ d ≠ '|' := by
  obtain ⟨⟨d, text, head, here⟩, -⟩ := ends_escapeChar word
  refine ⟨d, text ++ escape value, ?_, here⟩
  rw [escape, List.flatMap_cons, head, List.cons_append, ← escape]

lemma getLast?_escape {value : List Char} (ends : ∀ c ∈ value.getLast?, isPad c = false) :
    ∀ c ∈ (escape value).getLast?, isPad c = false := by
  rcases List.eq_nil_or_concat value with rfl | ⟨front, c, rfl⟩
  · simp [escape]
  · obtain ⟨-, d, last, word⟩ := ends_escapeChar (ends c (by simp))
    rw [escape, List.concat_eq_append, List.flatMap_append, List.flatMap_singleton,
      List.getLast?_append, last, Option.some_or]
    simpa using word

end Cell

namespace Lexeme

def bar : Lexeme :=
  ⟨.pipe, ['|'], none⟩

lemma cut_pads {pads : List Char} (all : ∀ c ∈ pads, isPad c) (rest : List Char) :
    cut tableRow () 0 (pads ++ rest) = pads.map pad ++ cut tableRow () 0 rest := by
  induction pads with
  | nil => rfl
  | cons c pads ih =>
    obtain ⟨first, others⟩ := List.forall_mem_cons.mp all
    rw [List.cons_append, cut, tableRow_pad first, List.map_cons, List.cons_append, ← ih others]
    rfl

lemma cut_bar (rest : List Char) :
    cut tableRow () 0 ('|' :: rest) = bar :: cut tableRow () 0 rest :=
  rfl

lemma cut_escape {value pads : List Char} (some : value ≠ [])
    (trimmed : ∀ c ∈ value.head?.toList ++ value.getLast?.toList, isPad c = false)
    (all : ∀ c ∈ pads, isPad c) (rest : List Char) :
    cut tableRow () 0 (Cell.escape value ++ pads ++ '|' :: rest) =
      ⟨.cell, Cell.escape value, none⟩ :: cut tableRow () 0 (pads ++ '|' :: rest) := by
  obtain ⟨front, back⟩ := List.forall_mem_append.mp trimmed
  obtain ⟨c, below, rfl⟩ := List.exists_cons_of_ne_nil some
  obtain ⟨d, text, whole, word, inner⟩ := Cell.exists_escape_cons below (front c (by simp))
  have last : ∀ c ∈ text.getLast?, isPad c = false := by
    have ends := Cell.getLast?_escape fun c hc => back c (by simpa using hc)
    rw [whole] at ends
    cases text with
    | nil => simp
    | cons e text => exact ends
  -- The scan tells the first character of a cell apart, and whether it escapes the next one.
  have stop : untilBar (d = '\\') (text ++ (pads ++ '|' :: rest)) = text ++ pads := by
    have cell := Cell.untilBar_escape_append (c :: below) (pads ++ '|' :: rest)
    rw [Cell.untilBar_pads_append all, whole, List.cons_append, untilBar, if_neg (by simp [inner])]
      at cell
    simpa using cell
  have more : (dropEnd isPad (text ++ pads)).length = text.length :=
    congrArg List.length (Text.dropEnd_append_of_pos last all)
  rw [whole, List.append_assoc, List.cons_append, cut, tableRow_cell word inner, stop, more,
    cut_eq_cut_drop, ofCut, List.take_left, List.drop_left]

end Lexeme

structure WrittenCell where
  left : List Char
  value : List Char
  right : List Char
  padded : ∀ c ∈ left ++ right, isPad c
  plain : '\r' ∉ value
  trimmed : ∀ c ∈ value.head?.toList ++ value.getLast?.toList, isPad c = false

namespace WrittenCell

def text (c : WrittenCell) : List Char :=
  c.left ++ Cell.escape c.value ++ c.right ++ ['|']

def inner (c : WrittenCell) : List Lexeme :=
  c.left.map Lexeme.pad ++ (if c.value = [] then [] else [⟨.cell, Cell.escape c.value, none⟩]) ++
    c.right.map Lexeme.pad

lemma cut_text (c : WrittenCell) (rest : List Char) :
    Lexeme.cut Lexeme.tableRow () 0 (c.text ++ rest) =
      c.inner ++ Lexeme.bar :: Lexeme.cut Lexeme.tableRow () 0 rest := by
  obtain ⟨left, right⟩ := List.forall_mem_append.mp c.padded
  have behind : Lexeme.cut Lexeme.tableRow () 0 (c.right ++ '|' :: rest) =
      c.right.map Lexeme.pad ++ Lexeme.bar :: Lexeme.cut Lexeme.tableRow () 0 rest :=
    Lexeme.cut_pads right _
  by_cases none : c.value = []
  · simp [text, inner, none, Cell.escape, Lexeme.cut_pads left, behind]
  · have cell := Lexeme.cut_escape none c.trimmed right rest
    rw [List.append_assoc] at cell
    simp [text, inner, none, Lexeme.cut_pads left, cell, behind]

lemma inline_text (c : WrittenCell) : ∀ d ∈ c.text, isBreak d = false := by
  obtain ⟨left, right⟩ := List.forall_mem_append.mp c.padded
  refine List.forall_mem_append.mpr ⟨List.forall_mem_append.mpr ⟨List.forall_mem_append.mpr
    ⟨fun d hd => ?_, Cell.isBreak_of_mem_escape c.plain⟩, fun d hd => ?_⟩, by simp [isBreak]⟩
  · exact Text.isBreak_of_isPad (left d hd)
  · exact Text.isBreak_of_isPad (right d hd)

end WrittenCell

structure WrittenRow where
  indent : List Char
  cells : List WrittenCell
  trail : List Char
  ending : List Char
  padded : ∀ c ∈ indent ++ trail, isPad c

namespace WrittenRow

def values (row : WrittenRow) : List (List Char) :=
  row.cells.map WrittenCell.value

def content (row : WrittenRow) : List Char :=
  row.indent ++ '|' :: (row.cells.flatMap WrittenCell.text ++ row.trail)

def text (row : WrittenRow) : List Char :=
  row.content ++ row.ending

def lexemes (trail : List Char) : List WrittenCell → List Lexeme
  | [] => Lexeme.bar :: trail.map Lexeme.pad
  | c :: cells => Lexeme.bar :: c.inner ++ lexemes trail cells

lemma cut_cells {trail : List Char} (all : ∀ c ∈ trail, isPad c) (cells : List WrittenCell) :
    Lexeme.cut Lexeme.tableRow () 0 ('|' :: (cells.flatMap WrittenCell.text ++ trail)) =
      lexemes trail cells := by
  rw [Lexeme.cut_bar]
  induction cells with
  | nil =>
    have pads := Lexeme.cut_pads all []
    simp only [List.append_nil] at pads
    rw [List.flatMap_nil, List.nil_append, pads, lexemes]
    simp [Lexeme.cut]
  | cons c cells ih =>
    rw [List.flatMap_cons, List.append_assoc, c.cut_text, ih, lexemes, List.cons_append]

lemma ofContent_content (row : WrittenRow) :
    Lexeme.ofContent none row.content =
      row.indent.map Lexeme.pad ++ lexemes row.trail row.cells := by
  obtain ⟨indent, trail⟩ := List.forall_mem_append.mp row.padded
  have bar : isPad '|' = false := rfl
  have front : row.content.takeWhile isPad = row.indent := by
    rw [content, List.takeWhile_append_of_pos indent, List.takeWhile_cons_of_neg (by simp [bar]),
      List.append_nil]
  have back : row.content.dropWhile isPad =
      '|' :: (row.cells.flatMap WrittenCell.text ++ row.trail) := by
    rw [content, List.dropWhile_append_of_pos indent, List.dropWhile_cons_of_neg (by simp [bar])]
  rw [Lexeme.ofContent, front, back, ← cut_cells trail]
  rfl

end WrittenRow

namespace RowPart

def value? : RowPart → Option (List Char)
  | cell tokens =>
    some (((tokens.find? (·.kind = .cell)).map fun t => Cell.unescape t.text).getD [])
  | loose _ => none

def raw? (ts : List Token) : Option (List Char) :=
  (ts.find? (·.kind = .cell)).map (·.text)

def rawPart? : RowPart → Option (Option (List Char))
  | cell tokens => some (raw? tokens)
  | loose _ => none

lemma value?_eq (p : RowPart) : p.value? = p.rawPart?.map fun raw => (raw.map Cell.unescape).getD [] := by
  cases p with
  | loose t => rfl
  | cell tokens => simp [value?, rawPart?, raw?, Function.comp_def]

lemma ofRule_cellChild (t : Token) :
    (cellChild t).ofRule .tableCellValue = decide (t.kind = .cell) := by
  by_cases cell : t.kind = .cell <;> simp [cellChild, cell, Tree.ofRule, Tree.rule?, built]

def cellView (anchor : Mark) (tokens : List Token) : View .tableCell :=
  ⟨(cell tokens).tree anchor, rfl⟩

lemma rawValue?_cellView (anchor : Mark) (tokens : List Token) :
    (cellView anchor tokens).rawValue? = raw? tokens := by
  have found : (tokens.map cellChild).find? (Tree.ofRule .tableCellValue) =
      (tokens.find? (·.kind = .cell)).map cellChild := by
    rw [List.find?_map]
    simp only [Function.comp_def, ofRule_cellChild]
  have child : (cellView anchor tokens).child? .tableCellValue =
      ((tokens.find? (·.kind = .cell)).map cellChild).bind (View.cast? .tableCellValue) :=
    congrArg (Option.bind · _) found
  rw [View.rawValue?, child, raw?]
  cases here : tokens.find? (·.kind = .cell) with
  | none => rfl
  | some t =>
    have cell : cellChild t = built .tableCellValue t.start [leaf t] :=
      if_pos (by simpa using List.find?_some here)
    rw [Option.map_some, cell]
    rfl

lemma map_rawValue?_cast? (anchor : Mark) (p : RowPart) :
    (View.cast? .tableCell (p.tree anchor)).map View.rawValue? = p.rawPart? := by
  cases p with
  | loose t => rfl
  | cell tokens =>
    have view : View.cast? .tableCell ((cell tokens).tree anchor) =
        some (cellView anchor tokens) := rfl
    rw [view, Option.map_some, rawValue?_cellView]
    rfl

end RowPart

namespace Line

lemma rawValues_rowView (l : Line) :
    l.rowView.cells.map View.rawValue? = l.rowParts.filterMap RowPart.rawPart? := by
  have parts : l.rowView.cells =
      (l.rowParts.map (RowPart.tree l.start)).filterMap (View.cast? .tableCell) := rfl
  rw [parts, List.filterMap_map, List.map_filterMap]
  exact List.filterMap_congr fun p _ => RowPart.map_rawValue?_cast? l.start p

lemma values_rowView (l : Line) : l.rowView.values = l.rowParts.filterMap RowPart.value? := by
  have values : l.rowView.values =
      (l.rowView.cells.map View.rawValue?).map fun raw => (raw.map Cell.unescape).getD [] := by
    rw [List.map_map]
    rfl
  rw [values, rawValues_rowView, List.map_filterMap]
  exact List.filterMap_congr fun p _ => p.value?_eq.symm

end Line

namespace WrittenRow

open Token (place placeEnd)

lemma split_append {ts : List Token} (inner : ∀ t ∈ ts, t.kind ≠ .pipe) (rest : List Token) :
    RowPart.split (ts ++ rest) = (ts ++ (RowPart.split rest).1, (RowPart.split rest).2) := by
  induction ts with
  | nil => rfl
  | cons t ts ih =>
    obtain ⟨first, others⟩ := List.forall_mem_cons.mp inner
    rw [List.cons_append, RowPart.split, if_neg first, ih others]
    rfl

lemma ne_pipe_of_isPad {k : TokenKind} (pad : k.isPad) : k ≠ .pipe ∧ k ≠ .cell := by
  constructor <;> (rintro rfl; cases pad)

lemma kind_inner (m : Mark) (c : WrittenCell) : ∀ t ∈ place m c.inner, t.kind ≠ .pipe := by
  rw [WrittenCell.inner, Token.place_append, Token.place_append]
  refine List.forall_mem_append.mpr ⟨List.forall_mem_append.mpr ⟨fun t ht => ?_, ?_⟩, fun t ht => ?_⟩
  · exact (ne_pipe_of_isPad (Token.kind_pads _ _ t ht)).1
  · by_cases none : c.value = [] <;> simp [none, place]
  · exact (ne_pipe_of_isPad (Token.kind_pads _ _ t ht)).1

lemma value?_cell (m n : Mark) (c : WrittenCell) :
    (RowPart.cell (⟨.pipe, ['|'], m⟩ :: place n c.inner)).value? = some c.value := by
  have pads (m : Mark) (text : List Char) :
      (place m (text.map Lexeme.pad)).find? (·.kind = .cell) = none :=
    List.find?_eq_none.mpr fun t ht => by simp [(ne_pipe_of_isPad (Token.kind_pads m text t ht)).2]
  rw [RowPart.value?, List.find?_cons_of_neg (by simp), WrittenCell.inner, Token.place_append,
    Token.place_append, List.find?_append, List.find?_append, pads, pads]
  by_cases none : c.value = []
  · simp [none, place]
  · simp [none, place, Cell.unescape_escape]

lemma split_lexemes (trail : List Char) (cells : List WrittenCell) (m : Mark) :
    ∃ group groups, RowPart.split (place m (lexemes trail cells)) = ([], group :: groups) ∧
      (RowPart.ofGroups (group :: groups)).filterMap RowPart.value? =
        cells.map WrittenCell.value := by
  induction cells generalizing m with
  | nil =>
    have pads := Token.kind_pads (m.advance .pipe ['|']) trail
    have split := split_append (fun t ht => (ne_pipe_of_isPad (pads t ht)).1) []
    rw [List.append_nil] at split
    refine ⟨⟨.pipe, ['|'], m⟩ :: place (m.advance .pipe ['|']) (trail.map Lexeme.pad), [], ?_, ?_⟩
    · rw [lexemes, place, RowPart.split, Lexeme.bar, split]
      simp [RowPart.split]
    · -- Behind the last bar is no cell: the bar and the padding stand by themselves.
      have none : (⟨.pipe, ['|'], m⟩ :: place (m.advance .pipe ['|']) (trail.map Lexeme.pad)).any
          (·.kind = .cell) = false :=
        List.any_eq_false.mpr (List.forall_mem_cons.mpr ⟨by simp, fun t ht => by
          simp [(ne_pipe_of_isPad (pads t ht)).2]⟩)
      rw [RowPart.ofGroups, none, List.filterMap_eq_nil_iff.mpr]
      · rfl
      · intro p hp
        obtain ⟨t, -, rfl⟩ := List.mem_map.mp hp
        rfl
  | cons c cells ih =>
    obtain ⟨group, groups, split, values⟩ := ih (placeEnd (m.advance .pipe ['|']) c.inner)
    refine ⟨⟨.pipe, ['|'], m⟩ :: place (m.advance .pipe ['|']) c.inner, group :: groups, ?_, ?_⟩
    · rw [lexemes, List.cons_append, place, Token.place_append, RowPart.split, Lexeme.bar,
        split_append (kind_inner _ c), split, List.append_nil]
      rfl
    · rw [RowPart.ofGroups, List.filterMap_cons_some (value?_cell m _ c), values, List.map_cons]
      simp

lemma closed_lexemes (trail : List Char) (cells : List WrittenCell) :
    ∀ l ∈ lexemes trail cells, l.openQuote = none := by
  induction cells with
  | nil => exact List.forall_mem_cons.mpr ⟨rfl, Lexeme.closed_pads trail⟩
  | cons c cells ih =>
    refine List.forall_mem_cons.mpr ⟨rfl, List.forall_mem_append.mpr ⟨?_, ih⟩⟩
    refine List.forall_mem_append.mpr ⟨List.forall_mem_append.mpr ⟨Lexeme.closed_pads _, ?_⟩,
      Lexeme.closed_pads _⟩
    split <;> simp

lemma exists_lexemes_cons (trail : List Char) (cells : List WrittenCell) :
    ∃ below, lexemes trail cells = Lexeme.bar :: below := by
  cases cells with
  | nil => exact ⟨_, rfl⟩
  | cons c cells => exact ⟨_, rfl⟩

variable (row : WrittenRow)

lemma isLine : Lexeme.IsLine (· = .pipe) row.content := by
  obtain ⟨indent, trail⟩ := List.forall_mem_append.mp row.padded
  obtain ⟨below, whole⟩ := exists_lexemes_cons row.trail row.cells
  refine ⟨?_, ⟨Lexeme.bar, ?_, by decide⟩, ?_⟩
  · refine List.forall_mem_append.mpr ⟨fun c hc => Text.isBreak_of_isPad (indent c hc),
      List.forall_mem_cons.mpr ⟨rfl, List.forall_mem_append.mpr ⟨fun c hc => ?_, fun c hc => ?_⟩⟩⟩
    · obtain ⟨cell, -, hc⟩ := List.mem_flatMap.mp hc
      exact cell.inline_text c hc
    · exact Text.isBreak_of_isPad (trail c hc)
  · have skipped : (row.indent.map Lexeme.pad).find? (!·.kind.isTrivia) = none :=
      List.find?_eq_none.mpr fun l hl => by simp [Lexeme.isTrivia_pads _ l hl]
    rw [ofContent_content, List.find?_append, skipped, whole]
    rfl
  · rw [ofContent_content]
    exact List.forall_mem_append.mpr ⟨Lexeme.closed_pads _, closed_lexemes _ _⟩

variable {row}

lemma values_of_read? {m : Mark} {ending : List Char} {l : Line}
    (read : l ∈ Line.read? m row.content ending) : l.rowView.values = row.values := by
  obtain ⟨below, whole⟩ := exists_lexemes_cons row.trail row.cells
  have content : Lexeme.ofContent none row.content =
      row.indent.map Lexeme.pad ++ Lexeme.bar :: below := by
    rw [ofContent_content, whole]
  obtain ⟨group, groups, split, values⟩ :=
    split_lexemes row.trail row.cells (placeEnd m (row.indent.map Lexeme.pad))
  rw [Line.read?_eq_some content (Lexeme.isTrivia_pads _) rfl, Option.mem_some_iff] at read
  have tokens : l.head :: l.tail =
      place (placeEnd m (row.indent.map Lexeme.pad)) (lexemes row.trail row.cells) := by
    rw [← read, whole]
    rfl
  have parts : l.rowParts = RowPart.ofGroups (group :: groups) := by
    rw [Line.rowParts, tokens, split]
    rfl
  rw [Line.values_rowView, parts, values, WrittenRow.values]

def OnLines (rest : List Char) : List WrittenRow → Prop
  | [] => True
  | row :: rows => IsLineEnd row.ending (rows.flatMap text ++ rest) ∧ OnLines rest rows

lemma itemsAt_rows {rest : List Char} {rows : List WrittenRow} (lines : OnLines rest rows)
    (m : Mark) :
    ∃ (ls : List Line) (n : Mark), Stream.itemsAt m (rows.flatMap text ++ rest) =
        ls.map Item.line ++ Stream.itemsAt n rest ∧
      (∀ l ∈ ls, l.kind = .pipe) ∧ ls.map (·.rowView.values) = rows.map values := by
  induction rows generalizing m with
  | nil => exact ⟨[], m, rfl, by simp, rfl⟩
  | cons row rows ih =>
    obtain ⟨l, read, kind, items⟩ := Stream.itemsAt_line row.isLine rfl lines.1 m
    obtain ⟨ls, n, below, kinds, same⟩ := ih lines.2 _
    refine ⟨l :: ls, n, ?_, List.forall_mem_cons.mpr ⟨by simpa using kind, kinds⟩, ?_⟩
    · rw [List.flatMap_cons, text, List.append_assoc, List.append_assoc, items, below]
      rfl
    · rw [List.map_cons, List.map_cons, values_of_read? read, same]

lemma isClosed_rows {rest : List Char} {rows : List WrittenRow} (lines : OnLines rest rows)
    (closed : ∀ l ∈ Lexeme.ofText rest, l.IsClosed) :
    ∀ l ∈ Lexeme.ofText (rows.flatMap text ++ rest), l.IsClosed := by
  induction rows with
  | nil => exact closed
  | cons row rows ih =>
    rw [List.flatMap_cons, text, List.append_assoc, List.append_assoc]
    exact Lexeme.isClosed_line row.isLine rfl lines.1 (ih lines.2)

end WrittenRow

end FeatureFile
