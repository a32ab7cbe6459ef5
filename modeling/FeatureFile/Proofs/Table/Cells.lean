import FeatureFile.Proofs.Document.Placed
import FeatureFile.Proofs.Table.Written
import FeatureFile.Proofs.Tree.LineParts

namespace FeatureFile

open Lexeme (cut tableRow untilBar)
open Text (isPad isBreak dropEnd)
open Token (place)

namespace Cell

/-- Cuts a line at its bars; a backslash hides the character behind it. -/
def cutBars : Bool → List Char → List (List Char)
  | _, [] => [[]]
  | escaped, c :: rest =>
    if c = '|' && !escaped then [] :: cutBars false rest
    else (cutBars (c = '\\' && !escaped) rest).modifyHead (c :: ·)

/-- The pieces of a line behind its first bar; the last one counts only if it is not blank. -/
def pieces (line : List Char) : List (List Char) :=
  let behind := (cutBars false line).tail
  if behind.getLast?.any (·.all isPad) then behind.dropLast else behind

def raw? (piece : List Char) : Option (List Char) :=
  if Text.trim isPad piece = [] then none else some (Text.trim isPad piece)

lemma cutBars_bar (rest : List Char) : cutBars false ('|' :: rest) = [] :: cutBars false rest :=
  rfl

lemma cutBars_cons {c : Char} (inner : c ≠ '|') (rest : List Char) :
    cutBars false (c :: rest) = (cutBars (c = '\\') rest).modifyHead (c :: ·) := by
  simp [cutBars, inner]

lemma cutBars_eq (escaped : Bool) (text : List Char) :
    (untilBar escaped text = text ∧ cutBars escaped text = [text]) ∨
      ∃ rest, text = untilBar escaped text ++ '|' :: rest ∧
        cutBars escaped text = untilBar escaped text :: cutBars false rest := by
  induction text generalizing escaped with
  | nil => exact .inl ⟨rfl, rfl⟩
  | cons c text ih =>
    rw [cutBars, untilBar]
    by_cases bar : (c = '|' && !escaped) = true
    · obtain rfl : c = '|' := by simp_all
      rw [if_pos bar, if_pos bar]
      exact .inr ⟨text, rfl, rfl⟩
    · rw [if_neg bar, if_neg bar]
      rcases ih (c = '\\' && !escaped) with ⟨whole, pieces⟩ | ⟨rest, whole, pieces⟩
      · exact .inl ⟨by rw [whole], by rw [pieces]; rfl⟩
      · exact .inr ⟨rest, congrArg (c :: ·) whole, by rw [pieces]; rfl⟩

lemma exists_cutBars_cons (escaped : Bool) (text : List Char) :
    ∃ piece pieces, cutBars escaped text = piece :: pieces := by
  rcases cutBars_eq escaped text with ⟨-, pieces⟩ | ⟨rest, -, pieces⟩ <;> exact ⟨_, _, pieces⟩

lemma raw?_cons_pad {c : Char} (pad : isPad c) (piece : List Char) :
    raw? (c :: piece) = raw? piece := by
  rw [raw?, raw?, Text.trim, Text.trim, List.dropWhile_cons_of_pos pad]

lemma map_raw?_cutBars_pad {c : Char} (pad : isPad c) (rest : List Char) :
    (cutBars false (c :: rest)).map raw? = (cutBars false rest).map raw? := by
  obtain ⟨piece, pieces, here⟩ := exists_cutBars_cons false rest
  have more : cutBars false (c :: rest) = (c :: piece) :: pieces := by
    rcases Text.isPad_iff.mp pad with rfl | rfl <;> simp [cutBars, here]
  rw [more, here, List.map_cons, List.map_cons, raw?_cons_pad pad]

lemma raw?_cons {c : Char} (word : isPad c = false) (piece : List Char) :
    raw? (c :: piece) = some (c :: dropEnd isPad piece) := by
  have kept : dropEnd isPad (c :: piece) = c :: dropEnd isPad piece := by
    rw [dropEnd]
    split <;> simp_all
  rw [raw?, Text.trim, List.dropWhile_cons_of_neg (by simp [word]), kept, if_neg (by simp)]

lemma raw?_eq_none {piece : List Char} : raw? piece = none ↔ piece.all isPad := by
  induction piece with
  | nil => simp [raw?, Text.trim, dropEnd]
  | cons c piece ih =>
    cases pad : isPad c with
    | true => simpa [raw?_cons_pad pad, pad] using ih
    | false => simp [raw?_cons pad, pad]

def dropNone (values : List (Option (List Char))) : List (Option (List Char)) :=
  if values.getLast? = some none then values.dropLast else values

lemma map_raw?_pieces (line : List Char) :
    (pieces line).map raw? = dropNone ((cutBars false line).tail.map raw?) := by
  rw [pieces, dropNone, List.getLast?_map]
  generalize (cutBars false line).tail = behind
  cases last : behind.getLast? with
  | none => simp
  | some piece =>
    simp only [Option.any_some, Option.map_some, Option.some.injEq, raw?_eq_none]
    split
    · rw [List.map_dropLast]
    · rfl

lemma dropNone_cons_cons (v w : Option (List Char)) (rest : List (Option (List Char))) :
    dropNone (v :: w :: rest) = v :: dropNone (w :: rest) := by
  rw [dropNone, dropNone, List.getLast?_cons_cons]
  split <;> rfl

end Cell

namespace RowPart

def rawValues (ts : List Token) : List (Option (List Char)) :=
  ((split ts).1 :: (split ts).2).map raw?

lemma raw?_cons {t : Token} (other : t.kind ≠ .cell) (ts : List Token) :
    raw? (t :: ts) = raw? ts := by
  rw [raw?, raw?, List.find?_cons_of_neg (by simpa using other)]

lemma raw?_eq_none {ts : List Token} : raw? ts = none ↔ ts.any (·.kind = .cell) = false := by
  simp [raw?]

lemma filterMap_rawPart?_ofGroups (groups : List (List Token)) :
    (ofGroups groups).filterMap rawPart? = Cell.dropNone (groups.map raw?) := by
  fun_induction ofGroups groups with
  | case1 => rfl
  | case2 last some =>
    have value : raw? last ≠ none := by simp [raw?_eq_none, some]
    simp [Cell.dropNone, rawPart?, value]
  | case3 last none =>
    have value : raw? last = .none := raw?_eq_none.mpr (by simpa using none)
    have loose : (last.map RowPart.loose).filterMap rawPart? = [] := by
      rw [List.filterMap_map]
      exact List.filterMap_eq_nil_iff.mpr fun _ _ => rfl
    simp [Cell.dropNone, value, loose]
  | case4 group rest more ih =>
    obtain ⟨next, others, rfl⟩ := List.exists_cons_of_ne_nil more
    have first : (cell group).rawPart? = some (raw? group) := rfl
    rw [List.filterMap_cons_some first, ih]
    exact (Cell.dropNone_cons_cons _ _ _).symm

end RowPart

lemma Lexeme.cut_cell {c : Char} (word : isPad c = false) (inner : c ≠ '|') {rest below : List Char}
    (whole : rest = untilBar (c = '\\') rest ++ below) :
    ∃ gone : List Char, (∀ a ∈ gone, isPad a) ∧ cut tableRow () 0 (c :: rest) =
      ⟨.cell, c :: dropEnd isPad (untilBar (c = '\\') rest), none⟩ ::
        (gone.map pad ++ cut tableRow () 0 below) := by
  obtain ⟨gone, shown, all⟩ := Text.dropEnd_append isPad (untilBar (c = '\\') rest)
  have split : rest = dropEnd isPad (untilBar (c = '\\') rest) ++ (gone ++ below) := by
    rw [← List.append_assoc, shown, ← whole]
  have taken : rest.take (dropEnd isPad (untilBar (c = '\\') rest)).length =
      dropEnd isPad (untilBar (c = '\\') rest) := by
    conv_lhs => enter [2]; rw [split]
    exact List.take_left
  have left : rest.drop (dropEnd isPad (untilBar (c = '\\') rest)).length = gone ++ below := by
    conv_lhs => enter [2]; rw [split]
    exact List.drop_left
  refine ⟨gone, all, ?_⟩
  rw [cut, tableRow_cell word inner, ofCut, taken, cut_eq_cut_drop, left, cut_pads all]

namespace RowPart

lemma map_raw?_split_bar {t : Token} (bar : t.kind = .pipe) (ts : List Token) :
    (split (t :: ts)).2.map raw? = rawValues ts := by
  have other : t.kind ≠ .cell := by simp [bar]
  rw [split, if_pos bar, List.map_cons, raw?_cons other]
  rfl

lemma rawValues_bar {t : Token} (bar : t.kind = .pipe) (ts : List Token) :
    rawValues (t :: ts) = none :: rawValues ts := by
  rw [rawValues, List.map_cons, map_raw?_split_bar bar, split, if_pos bar]
  rfl

lemma rawValues_append {front : List Token} (inner : ∀ t ∈ front, t.kind ≠ .pipe) (ts : List Token) :
    rawValues (front ++ ts) = raw? (front ++ (split ts).1) :: (split ts).2.map raw? := by
  rw [rawValues, WrittenRow.split_append inner, List.map_cons]

lemma rawValues_pad {t : Token} (pad : t.kind.isPad) (ts : List Token) :
    rawValues (t :: ts) = rawValues ts := by
  obtain ⟨bar, cell⟩ := WrittenRow.ne_pipe_of_isPad pad
  rw [← List.singleton_append, rawValues_append (by simpa using bar), List.singleton_append,
    raw?_cons cell]
  rfl

lemma rawValues_cell {t : Token} (cell : t.kind = .cell) {pads : List Token}
    (padded : ∀ u ∈ pads, u.kind.isPad) (ts : List Token) :
    rawValues (t :: (pads ++ ts)) = some t.text :: (split ts).2.map raw? := by
  have inner : ∀ u ∈ t :: pads, u.kind ≠ .pipe :=
    List.forall_mem_cons.mpr ⟨by simp [cell], fun u hu => (WrittenRow.ne_pipe_of_isPad (padded u hu)).1⟩
  rw [← List.cons_append, rawValues_append inner, raw?, List.cons_append,
    List.find?_cons_of_pos (by simpa using cell)]
  rfl

lemma rawValues_place (m : Mark) (text : List Char) :
    rawValues (place m (cut tableRow () 0 text)) = (Cell.cutBars false text).map Cell.raw? := by
  -- A cell takes all up to the next bar at once, hence the induction on how much is left.
  induction length : text.length using Nat.strong_induction_on generalizing m text with
  | _ n ih =>
    cases text with
    | nil => rfl
    | cons c rest =>
      have behind (m : Mark) {text : List Char} (shorter : text.length ≤ rest.length) :
          rawValues (place m (cut tableRow () 0 text)) = (Cell.cutBars false text).map Cell.raw? :=
        ih text.length (by rw [← length, List.length_cons]; omega) m text rfl
      cases pad : isPad c with
      | true =>
        have lexemes : cut tableRow () 0 (c :: rest) = Lexeme.pad c :: cut tableRow () 0 rest :=
          Lexeme.cut_pads (by simpa using pad : ∀ a ∈ [c], isPad a) rest
        rw [lexemes, place, rawValues_pad (Lexeme.isPad_padKind c), behind _ le_rfl,
          Cell.map_raw?_cutBars_pad pad]
      | false =>
        by_cases bar : c = '|'
        · subst bar
          rw [Lexeme.cut_bar, place, rawValues_bar rfl, behind _ le_rfl, Cell.cutBars_bar]
          rfl
        · rw [Cell.cutBars_cons bar]
          rcases Cell.cutBars_eq (c = '\\') rest with ⟨whole, pieces⟩ | ⟨below, whole, pieces⟩
          · obtain ⟨gone, -, lexemes⟩ := Lexeme.cut_cell pad bar
              (whole.symm.trans (List.append_nil _).symm)
            rw [lexemes, place, Token.place_append, rawValues_cell (by rfl) (Token.kind_pads _ gone),
              pieces, whole]
            exact congrArg (· :: []) (Cell.raw?_cons pad rest).symm
          -- What stands behind the bar is a row again, and the scan reads it with no escape open.
          · obtain ⟨gone, -, lexemes⟩ := Lexeme.cut_cell pad bar whole
            have shorter : below.length ≤ rest.length := by
              rw [whole, List.length_append, List.length_cons]
              omega
            rw [lexemes, place, Token.place_append, rawValues_cell (by rfl) (Token.kind_pads _ gone),
              Lexeme.cut_bar, place, map_raw?_split_bar (by rfl), behind _ shorter, pieces]
            exact congrArg (· :: _) (Cell.raw?_cons pad _).symm

end RowPart

namespace Line

lemma filterMap_rawPart?_rowParts {l : Line} (bar : l.kind = .pipe) :
    l.rowParts.filterMap RowPart.rawPart? = Cell.dropNone (RowPart.rawValues (l.head :: l.tail)).tail := by
  have first : l.head.kind = .pipe := bar
  rw [rowParts, RowPart.rawValues, List.map_cons, List.tail_cons, RowPart.split, if_pos first]
  exact RowPart.filterMap_rawPart?_ofGroups _

lemma IsPlaced.rawValues_rowView {text content : List Char} {l : Line} (h : l.IsPlaced text content)
    (bar : l.kind = .pipe) :
    l.rowView.cells.map View.rawValue? = (Cell.pieces content).map Cell.raw? := by
  obtain ⟨rest, rfl⟩ := h.bar bar
  have lexemes : Lexeme.plainLine ('|' :: rest) = cut tableRow () 0 ('|' :: rest) := rfl
  rw [Line.rawValues_rowView, filterMap_rawPart?_rowParts bar, h.tokens, lexemes,
    RowPart.rawValues_place, Cell.map_raw?_pieces, List.map_tail]

end Line

namespace Parsed

/-- Each row has one cell for each piece of its line, cut at the bars that no backslash hides, and the
raw value of a cell is its piece without the padding, or nothing if nothing is left of it. -/
theorem cells_correspond (options : Options) (text : List Char) (v : View .tableRow)
    (mem : v.tree ∈ (parse options text).root.descendants) :
    ∃ rest, Text.dropBytes? v.tree.start.offset text = some ('|' :: rest) ∧
      v.cells.map View.rawValue? =
        (Cell.pieces (('|' :: rest).takeWhile (!isBreak ·))).map Cell.raw? := by
  have part : v.tree.rule?.any Rule.isLinePart := v.any_rule?_tree rfl
  obtain ⟨tree, row⟩ := v
  rw [Tree.descendants_eq_nodesOf] at mem
  obtain ⟨l, item, ⟨bar, rfl⟩ | ⟨-, tag, -, rfl⟩⟩ := Feature.exists_line isFormed mem part
  · obtain ⟨content, placed⟩ := exists_isPlaced item (by rw [bar]; rfl)
    obtain ⟨back, behind, stop⟩ := placed.dropBytes?
    obtain ⟨rest, rfl⟩ := placed.bar bar
    have start : l.rowTree.start = l.start := l.start_rowTree
    refine ⟨rest ++ back, start ▸ behind, ?_⟩
    rw [← List.cons_append, Text.takeWhile_append_of_stop (by simpa using placed.inline) (by simpa using stop)]
    exact placed.rawValues_rowView bar
  · cases tag with
    | stray t => cases row
    | tag sign name => cases name <;> cases row

theorem cells_correspond_escapes :
    let text := "Feature: f\nScenario: s\nGiven g\n  | a\\|b |\\\\|\t| c \\ | d\\\r\n|\n".toList
    ∃ v : View .tableRow, v.tree ∈ (parse ⟨true⟩ text).root.descendants ∧
      v.cells.map View.rawValue? = [some "a\\|b".toList, some "\\\\".toList, none,
        some "c \\".toList, some "d\\".toList] ∧
      ∃ rest, Text.dropBytes? v.tree.start.offset text = some ('|' :: rest) ∧
        v.cells.map View.rawValue? =
          (Cell.pieces (('|' :: rest).takeWhile (!isBreak ·))).map Cell.raw? := by
  intro text
  have found : ((parse ⟨true⟩ text).root.descendants.filterMap (View.cast? .tableRow)).head?.map
      (·.cells.map View.rawValue?) = some [some "a\\|b".toList, some "\\\\".toList, none,
        some "c \\".toList, some "d\\".toList] := by decide +kernel
  obtain ⟨v, first, values⟩ := Option.map_eq_some_iff.mp found
  have mem := View.tree_mem (List.mem_of_mem_head? first)
  exact ⟨v, mem, values, cells_correspond ⟨true⟩ text v mem⟩

end Parsed

end FeatureFile
