import FeatureFile.Parse
import FeatureFile.Proofs.Alike.Trees

namespace FeatureFile

structure Diagnostic.Alike (L : Likeness) (d e : Diagnostic) : Prop where
  fault : d.fault = e.fault
  severity : d.severity = e.severity
  start : ∃ t u, L.token t u ∧ d.start = t.start ∧ e.start = u.start

inductive Remark.Alike (L : Likeness) : Remark → Remark → Prop
  | fault {d e : Diagnostic} : d.Alike L e → Alike L (.fault d) (.fault e)
  | openBlock : Alike L .openBlock .openBlock

variable {L : Likeness}

lemma Diagnostic.Alike.mark {d e : Diagnostic} (h : d.Alike L e) : L.mark d.start e.start := by
  obtain ⟨t, u, here, left, right⟩ := h.start
  rw [left, right]
  exact L.start here

lemma Diagnostic.alike_of (f : Fault) {t u : Token} (stop stop' : Nat) (h : L.token t u) :
    (of f t.start stop).Alike L (of f u.start stop') :=
  ⟨rfl, rfl, t, u, h, rfl, rfl⟩

namespace Remark

lemma alike_atToken (f : Fault) {t u : Token} (h : L.token t u) :
    (atToken f t).Alike L (atToken f u) :=
  .fault (Diagnostic.alike_of f _ _ h)

lemma Alike.diagnostic? {r s : Remark} (h : r.Alike L s) :
    Option.Rel (Diagnostic.Alike L) r.diagnostic? s.diagnostic? := by
  cases h with
  | fault d => exact .some d
  | openBlock => exact .none

lemma alike_diagnostics {rs ss : List Remark} (h : List.Forall₂ (Alike L) rs ss) :
    List.Forall₂ (Diagnostic.Alike L) (rs.filterMap Remark.diagnostic?)
      (ss.filterMap Remark.diagnostic?) :=
  List.rel_filterMap (fun _ _ remark => Alike.diagnostic? remark) h

end Remark

lemma TagPart.alike_remarks (reported : Bool) {ps qs : List TagPart}
    (h : List.Forall₂ (TagPart.Alike L) ps qs) :
    List.Forall₂ (Remark.Alike L) (remarks reported ps) (remarks reported qs) := by
  induction h generalizing reported with
  | nil => simp [remarks]
  | cons first _ ih =>
    cases first with
    | stray t =>
      cases reported with
      | true => simpa [remarks] using ih true
      | false => simpa [remarks, L.kind t] using ⟨Remark.alike_atToken _ t, ih true⟩
    | tag sign name =>
      cases name with
      | none => simpa [remarks] using ⟨Remark.alike_atToken _ sign, ih reported⟩
      | some _ => simpa [remarks] using ih reported

namespace RowPart

lemma start_cellChild (t : Token) : (cellChild t).start = t.start := by
  rw [cellChild]
  split <;> simp [Tree.built, Tree.start]

lemma start_ofGroups (rule : Rule) (anchor : Mark) (t : Token) (ts : List Token)
    (groups : List (List Token)) :
    (Tree.built rule anchor ((ofGroups ((t :: ts) :: groups)).map (tree anchor))).start =
      t.start := by
  cases groups with
  | cons _ _ => simp [ofGroups, tree, Tree.built, Tree.start, start_cellChild]
  | nil =>
    rw [ofGroups]
    split <;> simp [tree, Tree.built, Tree.start, start_cellChild]

end RowPart

variable (o : Options)

namespace Line

variable {l m : Line} {ls ms : List Line}

lemma start_rowTree (l : Line) : l.rowTree.start = l.head.start := by
  by_cases bar : l.head.kind = .pipe
  · simpa [rowTree, rowParts, RowPart.split, bar] using RowPart.start_ofGroups _ _ _ _ _
  · simp [rowTree, rowParts, RowPart.split, bar, RowPart.tree, Tree.built, Tree.start]

lemma Alike.cellCount_eq (h : Alike L l m) : l.cellCount = m.cellCount := by
  have cells : List.Forall₂ (RowPart.Alike L) (l.rowParts.filter RowPart.isCell)
      (m.rowParts.filter RowPart.isCell) :=
    h.rowParts.filter fun _ _ part => by cases part <;> rfl
  rw [cellCount, cellCount, List.countP_eq_length_filter, List.countP_eq_length_filter,
    cells.length_eq]

lemma alike_unevenRows (expected row : Nat) (h : List.Forall₂ (Alike L) ls ms) :
    List.Forall₂ (Remark.Alike L) (unevenRows o expected row ls)
      (unevenRows o expected row ms) := by
  induction h generalizing row with
  | nil => exact .nil
  | @cons l m _ _ first _ ih =>
    rw [unevenRows, unevenRows, start_rowTree, start_rowTree, ← first.cellCount_eq]
    split
    · exact .cons (.fault (Diagnostic.alike_of _ _ _ first.head)) (ih (row + 1))
    · exact ih (row + 1)

lemma alike_tableRemarks (h : List.Forall₂ (Alike L) ls ms) :
    List.Forall₂ (Remark.Alike L) (tableRemarks o ls) (tableRemarks o ms) := by
  cases h with
  | nil => exact .nil
  | cons first rest =>
    rw [tableRemarks, tableRemarks, ← first.cellCount_eq]
    exact alike_unevenRows o _ _ rest

lemma alike_tagRemarks (h : List.Forall₂ (Alike L) ls ms) :
    List.Forall₂ (Remark.Alike L) (tagRemarks ls) (tagRemarks ms) :=
  List.rel_flatMap h fun _ _ line => TagPart.alike_remarks false line.tagParts

end Line

lemma Block.Alike.remarks {b c : Block} (h : b.Alike L c) :
    List.Forall₂ (Remark.Alike L) b.remarks c.remarks := by
  rw [Block.remarks, Block.remarks, h.closing.isNone_eq]
  split
  · exact .cons .openBlock .nil
  · exact .nil

lemma Item.Alike.unexpected {i j : Item} (context : Rule) (h : i.Alike L j) :
    (i.unexpected context).Alike L (j.unexpected context) := by
  rw [Item.unexpected, Item.unexpected, h.kind]
  exact Remark.alike_atToken _ h.head

lemma Entry.alike_remarks {α : Type} {R : α → α → Prop} {member : α → List Remark}
    (context : Rule)
    (each : ∀ a b, R a b → List.Forall₂ (Remark.Alike L) (member a) (member b))
    {es es' : List (Entry α)} (h : List.Forall₂ (Entry.Alike L R) es es') :
    List.Forall₂ (Remark.Alike L) (es.flatMap (remarks context member))
      (es'.flatMap (remarks context member)) := by
  refine List.rel_flatMap h fun e e' entry => ?_
  cases entry with
  | placed here => exact each _ _ here
  | stray item => exact .cons (item.unexpected context) .nil

lemma Step.Alike.remarks {s t : Step} (h : s.Alike L t) :
    List.Forall₂ (Remark.Alike L) (s.remarks o) (t.remarks o) :=
  List.rel_append (List.rel_flatMap h.block.forall₂_toList fun _ _ block => block.remarks)
    (Line.alike_tableRemarks o h.rows)

lemma Steps.Alike.remarks {s t : Steps} (h : s.Alike L t) :
    List.Forall₂ (Remark.Alike L) (s.remarks o) (t.remarks o) :=
  Entry.alike_remarks .steps (fun _ _ step => step.remarks o) h.entries

lemma Heading.Alike.remarks {h h' : Heading} (alike : h.Alike L h') :
    List.Forall₂ (Remark.Alike L) h.remarks h'.remarks :=
  Line.alike_tagRemarks alike.tags

lemma Examples.Alike.remarks {e e' : Examples} (h : e.Alike L e') :
    List.Forall₂ (Remark.Alike L) (e.remarks o) (e'.remarks o) := by
  refine List.rel_append h.heading.remarks ?_
  rw [h.rows.isEmpty_eq]
  split
  · exact .cons (Remark.alike_atToken _ h.heading.header.head) .nil
  · exact Line.alike_tableRemarks o h.rows

namespace Scenario

variable {s s' : Scenario}

lemma Alike.examplesRemarks (h : s.Alike L s') :
    List.Forall₂ (Remark.Alike L) (s.examplesRemarks o) (s'.examplesRemarks o) := by
  rw [Scenario.examplesRemarks, Scenario.examplesRemarks, h.isOutline_eq, h.examples.isEmpty_eq]
  split
  · split
    · exact .cons (Remark.alike_atToken _ h.heading.header.head) .nil
    · exact List.rel_flatMap h.examples fun _ _ e => e.remarks o
  · exact List.rel_flatMap h.examples fun _ _ e =>
      .cons (Remark.alike_atToken _ e.heading.head) (e.remarks o)

lemma Alike.remarks (h : s.Alike L s') :
    List.Forall₂ (Remark.Alike L) (s.remarks o) (s'.remarks o) :=
  List.rel_append (List.rel_append h.heading.remarks (h.steps.remarks o)) (h.examplesRemarks o)

end Scenario

lemma Scenarios.Alike.remarks {s s' : Scenarios} (h : s.Alike L s') :
    List.Forall₂ (Remark.Alike L) (s.remarks o) (s'.remarks o) :=
  Entry.alike_remarks .scenarios (fun _ _ scenario => scenario.remarks o) h.entries

lemma Background.alike_remarks {b b' : Option Background}
    (h : Option.Rel (Background.Alike L) b b') :
    List.Forall₂ (Remark.Alike L) (b.toList.flatMap (remarks o)) (b'.toList.flatMap (remarks o)) :=
  List.rel_flatMap h.forall₂_toList fun _ _ background =>
    List.rel_append background.heading.remarks (background.steps.remarks o)

lemma BusinessRule.Alike.remarks {r r' : BusinessRule} (h : r.Alike L r') :
    List.Forall₂ (Remark.Alike L) (r.remarks o) (r'.remarks o) :=
  List.rel_append (List.rel_append h.heading.remarks (Background.alike_remarks o h.background))
    (h.scenarios.remarks o)

lemma Content.Alike.remarks {c c' : Content} (h : c.Alike L c') :
    List.Forall₂ (Remark.Alike L) (c.remarks o) (c'.remarks o) := by
  cases h with
  | scenarios s => exact s.remarks o
  | rules es => exact Entry.alike_remarks .businessRules (fun _ _ rule => rule.remarks o) es

lemma Opening.Alike.remarks {front front' : Opening} (h : front.Alike L front') :
    List.Forall₂ (Remark.Alike L) front.remarks front'.remarks := by
  have missing : List.Forall₂ (Remark.Alike L) (front.missing.toList.map MissingHeader.remark)
      (front'.missing.toList.map MissingHeader.remark) :=
    List.rel_map (fun m m' here => by
      rw [MissingHeader.remark, MissingHeader.remark, here.found]
      exact Remark.alike_atToken _ here.met) h.missing.forall₂_toList
  exact List.rel_append missing
    (List.rel_flatMap h.heading.forall₂_toList fun _ _ heading => heading.remarks)

lemma Feature.Alike.remarks {f f' : Feature} (h : f.Alike L f') :
    List.Forall₂ (Remark.Alike L) (f.remarks o) (f'.remarks o) :=
  List.rel_append (List.rel_append h.opening.remarks (Background.alike_remarks o h.background))
    (h.content.remarks o)

end FeatureFile
