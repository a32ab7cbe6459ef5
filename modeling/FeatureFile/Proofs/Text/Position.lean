import FeatureFile.Position
import FeatureFile.Proofs.Text.Append
import FeatureFile.Proofs.Text.Slice

namespace FeatureFile

namespace Text

def breakEnds : List Char → List Bool
  | [] => []
  | c :: rest => (c = '\n' || (c = '\r' && rest.head? ≠ some '\n')) :: breakEnds rest

def charsBefore : Nat → List Char → Nat
  | _, [] => 0
  | offset, c :: rest =>
    if c.utf8Size ≤ offset then charsBefore (offset - c.utf8Size) rest + 1 else 0

end Text

def Position.behind (ends : List Bool) : Position :=
  ⟨1 + ends.count true, (ends.reverse.takeWhile (!·)).length⟩

/-- The position of an offset in a text; its byte-order mark does not count as a character. -/
def Text.positionAt (text : List Char) (offset : Nat) : Position :=
  let body := stripMark text
  .behind ((breakEnds body).take (charsBefore (offset - (byteLength text - byteLength body)) body))

namespace Position

def capped (p : Position) : Position :=
  ⟨min p.line limit, min p.column limit⟩

lemma capped_of_le {p : Position} (line : p.line ≤ limit) (column : p.column ≤ limit) :
    p.capped = p := by
  rw [capped, Nat.min_eq_left line, Nat.min_eq_left column]

lemma column_behind_le (ends : List Bool) : (behind ends).column ≤ ends.length := by
  have line := (List.takeWhile_sublist (!·) (l := ends.reverse)).length_le
  rwa [List.length_reverse] at line

end Position

namespace Text

def SourceLine.breakEnds (l : SourceLine) : List Bool :=
  List.replicate l.content.length false ++
    match l.ending with
    | [] => []
    | _ :: more => List.replicate more.length false ++ [true]

lemma flatMap_breakEnds_prependChar (c : Char) (ls : List SourceLine) :
    (prependChar c ls).flatMap SourceLine.breakEnds = false :: ls.flatMap SourceLine.breakEnds := by
  cases ls <;> simp [prependChar, SourceLine.breakEnds, List.replicate_succ]

lemma breakEnds_eq_flatMap_lines (text : List Char) :
    breakEnds text = (lines text).flatMap SourceLine.breakEnds := by
  fun_induction lines text with
  | case1 => rfl
  | case2 rest ih => simp [breakEnds, SourceLine.breakEnds, ih]
  | case3 c rest joined hc ih =>
    have alone (carriage : c = '\r') : rest.head? ≠ some '\n' := by
      cases rest with
      | nil => simp
      | cons d more => simpa using fun feed => joined more carriage (by rw [feed])
    rcases (by simpa [isBreak] using hc : c = '\r' ∨ c = '\n') with carriage | feed
    · simp [breakEnds, SourceLine.breakEnds, ih, carriage, alone carriage]
    · simp [breakEnds, SourceLine.breakEnds, ih, feed]
  | case4 c rest _ hc ih =>
    rw [flatMap_breakEnds_prependChar, ← ih]
    simp_all [breakEnds, isBreak]

lemma count_breakEnds (text : List Char) : (breakEnds text).count true = breakCount text := by
  rw [breakEnds_eq_flatMap_lines, breakCount]
  induction lines text with
  | nil => rfl
  | cons l rest ih =>
    rw [List.flatMap_cons, List.count_append, ih, List.countP_cons, Nat.add_comm]
    congr 1
    cases ending : l.ending <;> simp [SourceLine.breakEnds, ending, List.count_replicate]

lemma length_breakEnds (text : List Char) : (breakEnds text).length = text.length := by
  induction text with
  | nil => rfl
  | cons c rest ih => rw [breakEnds, List.length_cons, List.length_cons, ih]

lemma breakEnds_stripMark_sublist (text : List Char) :
    (breakEnds (stripMark text)).Sublist (breakEnds text) := by
  cases text with
  | nil => exact .refl _
  | cons c rest =>
    rw [stripMark]
    split
    · exact List.sublist_cons_self _ _
    · exact .refl _

lemma head?_replicate_feed (n : Nat) : (List.replicate n '\n').head? ≠ some byteOrderMark := by
  cases n <;> simp [List.replicate_succ, byteOrderMark]

lemma breakCount_replicate_feed (n : Nat) : breakCount (List.replicate n '\n') = n := by
  induction n with
  | zero => rfl
  | succ n ih =>
    rw [List.replicate_succ, ← count_breakEnds, breakEnds, List.count_cons, count_breakEnds, ih]
    rfl

lemma capped_positionAt {text : List Char} (short : text.length ≤ Position.limit)
    (few : breakCount text < Position.limit) (offset : Nat) :
    (positionAt text offset).capped = positionAt text offset := by
  have part : ((breakEnds (stripMark text)).take (charsBefore
      (offset - (byteLength text - byteLength (stripMark text))) (stripMark text))).Sublist
      (breakEnds text) := (List.take_sublist _ _).trans (breakEnds_stripMark_sublist text)
  have breaks := part.count_le true
  have chars := part.length_le
  rw [count_breakEnds] at breaks
  rw [length_breakEnds] at chars
  refine Position.capped_of_le ?_
    (Nat.le_trans (Position.column_behind_le _) (Nat.le_trans chars short))
  simp only [positionAt, Position.behind]
  omega

end Text

end FeatureFile
