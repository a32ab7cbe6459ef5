import FeatureFile.Document.Remarks
import FeatureFile.Proofs.Shift.Document

namespace FeatureFile

def Diagnostic.shift (d : Shift) (e : Diagnostic) : Diagnostic :=
  ⟨e.fault, e.severity, e.start.shift d, e.stop + d.bytes⟩

def Remark.shift (d : Shift) : Remark → Remark
  | fault e => fault (e.shift d)
  | openBlock => openBlock

namespace Tree

variable (d : Shift)

lemma start_shift (t : Tree) : (t.shift d).start = t.start.shift d := by
  induction t using Tree.start.induct with
  | case1 t => rfl
  | case2 rule anchor recovered => simp [start]
  | case3 rule anchor recovered first rest ih => simpa [start] using ih

mutual

lemma stop_shift (t : Tree) : (t.shift d).stop = t.stop.shift d := by
  cases t with
  | leaf t => simp [stop]
  | node rule anchor recovered cs => simpa [stop] using stopOf_shift anchor cs

lemma stopOf_shift (anchor : Mark) (ts : List Tree) :
    stopOf (anchor.shift d) (ts.map (shift d)) = (stopOf anchor ts).shift d := by
  cases ts with
  | nil => rfl
  | cons t rest => rw [List.map_cons, stopOf, stop_shift t, stopOf_shift t.stop rest, stopOf]

end

end Tree

variable (d : Shift) (o : Options)

lemma Remark.atToken_shift (f : Fault) (t : Token) : atToken f (t.shift d) = (atToken f t).shift d := by
  simp [atToken, shift, Diagnostic.atToken, Diagnostic.of, Diagnostic.shift, Mark.shift,
    Nat.add_right_comm]

lemma TagPart.remarks_shift (reported : Bool) (parts : List TagPart) :
    remarks reported (parts.map (shift d)) = (remarks reported parts).map (Remark.shift d) := by
  fun_induction remarks reported parts with
  | case1 => rfl
  | case2 reported sign rest ih => simp [shift, remarks, ih, Remark.atToken_shift]
  | case3 reported sign name rest ih => simpa [shift, remarks] using ih
  | case4 t rest ih => simpa [shift, remarks] using ih
  | case5 t rest ih => simp [shift, remarks, ih, Remark.atToken_shift]

namespace Line

lemma tagRemarks_shift (ls : List Line) :
    tagRemarks (ls.map (shift d)) = (tagRemarks ls).map (Remark.shift d) := by
  rw [tagRemarks, tagRemarks, List.flatMap_map, List.map_flatMap]
  exact List.flatMap_congr fun l _ => by rw [tagParts_shift, TagPart.remarks_shift]

lemma cellCount_shift (l : Line) : (l.shift d).cellCount = l.cellCount := by
  have parts := l.rowParts_shift d
  rw [cellCount, cellCount, parts, List.countP_map]
  exact List.countP_congr fun p _ => by cases p <;> rfl

lemma unevenRows_shift (expected row : Nat) (ls : List Line) :
    unevenRows o expected row (ls.map (shift d)) =
      (unevenRows o expected row ls).map (Remark.shift d) := by
  induction ls generalizing row with
  | nil => rfl
  | cons l rest ih =>
    rw [List.map_cons, unevenRows, unevenRows, cellCount_shift, ih]
    split
    · simp [Remark.shift, Diagnostic.shift, Diagnostic.of, rowTree_shift, Tree.start_shift,
        Tree.stop_shift, Mark.shift]
    · rfl

lemma tableRemarks_shift (ls : List Line) :
    tableRemarks o (ls.map (shift d)) = (tableRemarks o ls).map (Remark.shift d) := by
  cases ls with
  | nil => rfl
  | cons l rest => rw [List.map_cons, tableRemarks, cellCount_shift, unevenRows_shift, tableRemarks]

end Line

lemma Entry.remarks_shift {α : Type} (context : Rule) {member : α → List Remark} {f : α → α}
    (inner : ∀ a, member (f a) = (member a).map (Remark.shift d)) (es : List (Entry α)) :
    (es.map (shift d f)).flatMap (remarks context member) =
      (es.flatMap (remarks context member)).map (Remark.shift d) := by
  rw [List.flatMap_map, List.map_flatMap]
  refine List.flatMap_congr fun e _ => ?_
  cases e with
  | placed a => exact inner a
  | stray i => simp [shift, remarks, Item.unexpected, Remark.atToken_shift]

lemma Step.remarks_shift (s : Step) :
    (s.shift d).remarks o = (s.remarks o).map (Remark.shift d) := by
  have block (b : Block) : (b.shift d).remarks = b.remarks.map (Remark.shift d) := by
    obtain ⟨opening, content, _ | closing⟩ := b <;> rfl
  obtain ⟨line, b, rows⟩ := s
  cases b <;> simp [shift, remarks, block, Line.tableRemarks_shift]

lemma Steps.remarks_shift (s : Steps) :
    (s.shift d).remarks o = (s.remarks o).map (Remark.shift d) :=
  Entry.remarks_shift d .steps (Step.remarks_shift d o) s.entries

lemma Heading.remarks_shift (h : Heading) : (h.shift d).remarks = h.remarks.map (Remark.shift d) :=
  Line.tagRemarks_shift d h.tags

lemma Examples.remarks_shift (e : Examples) :
    (e.shift d).remarks o = (e.remarks o).map (Remark.shift d) := by
  obtain ⟨h, rows⟩ := e
  have keyword : (h.shift d).header.head = h.header.head.shift d := rfl
  cases rows with
  | nil => simp [shift, remarks, Heading.remarks_shift, keyword, Remark.atToken_shift]
  | cons l rest => simp [shift, remarks, Heading.remarks_shift, ← Line.tableRemarks_shift]

namespace Scenario

lemma examplesRemarks_shift (s : Scenario) :
    (s.shift d).examplesRemarks o = (s.examplesRemarks o).map (Remark.shift d) := by
  obtain ⟨h, steps, examples⟩ := s
  have outline : (shift d ⟨h, steps, examples⟩).isOutline = isOutline ⟨h, steps, examples⟩ := rfl
  rw [examplesRemarks, examplesRemarks, outline]
  split
  · cases examples with
    | nil => simp [shift, Heading.shift, Line.shift, Remark.atToken_shift]
    | cons e es =>
      simp [shift, List.flatMap_map, List.map_flatMap, Examples.remarks_shift]
  · simp only [shift, List.flatMap_map, List.map_flatMap]
    refine List.flatMap_congr fun e _ => ?_
    have head := Heading.head_shift d e.heading
    rw [List.map_cons, ← Examples.remarks_shift, ← Remark.atToken_shift, ← head]
    rfl

lemma remarks_shift (s : Scenario) :
    (s.shift d).remarks o = (s.remarks o).map (Remark.shift d) := by
  have examples := examplesRemarks_shift d o s
  simp only [remarks, List.map_append, examples]
  simp [shift, Heading.remarks_shift, Steps.remarks_shift]

end Scenario

lemma Scenarios.remarks_shift (s : Scenarios) :
    (s.shift d).remarks o = (s.remarks o).map (Remark.shift d) :=
  Entry.remarks_shift d .scenarios (Scenario.remarks_shift d o) s.entries

lemma Background.remarks_shift (b : Option Background) :
    (b.map (shift d)).toList.flatMap (remarks o) =
      (b.toList.flatMap (remarks o)).map (Remark.shift d) := by
  cases b <;> simp [remarks, shift, Heading.remarks_shift, Steps.remarks_shift]

lemma BusinessRule.remarks_shift (r : BusinessRule) :
    (r.shift d).remarks o = (r.remarks o).map (Remark.shift d) := by
  have background := Background.remarks_shift d o r.background
  simp [remarks, shift, Heading.remarks_shift, background, Scenarios.remarks_shift]

lemma Content.remarks_shift (c : Content) :
    (c.shift d).remarks o = (c.remarks o).map (Remark.shift d) := by
  cases c with
  | scenarios s => exact s.remarks_shift d o
  | rules es => exact Entry.remarks_shift d .businessRules (BusinessRule.remarks_shift d o) es

lemma Opening.remarks_shift (front : Opening) :
    (front.shift d).remarks = front.remarks.map (Remark.shift d) := by
  obtain ⟨missing, junk, heading, anchor⟩ := front
  cases missing <;> cases heading <;>
    simp [shift, remarks, Heading.remarks_shift, MissingHeader.remark, MissingHeader.shift,
      Remark.atToken_shift]

lemma Feature.remarks_shift (f : Feature) :
    (f.shift d).remarks o = (f.remarks o).map (Remark.shift d) := by
  have background := Background.remarks_shift d o f.background
  simp [remarks, shift, Opening.remarks_shift, background, Content.remarks_shift]

end FeatureFile
