import FeatureFile.Document.Remarks
import Mathlib.Data.List.Basic
import Mathlib.Tactic.Lemma

namespace FeatureFile

def Remark.isUneven : Remark → Bool
  | fault d => d.fault.isUneven
  | openBlock => false

def Options.keeps (o : Options) (r : Remark) : Bool :=
  o.warnUnevenTables || !r.isUneven

variable (o : Options)

lemma Remark.filter_keeps {rs : List Remark} (even : ∀ r ∈ rs, r.isUneven = false) :
    rs.filter o.keeps = rs :=
  List.filter_eq_self.mpr fun r hr => by simp [Options.keeps, even r hr]

lemma TagPart.even_of_mem_remarks (reported : Bool) (parts : List TagPart) :
    ∀ r ∈ remarks reported parts, r.isUneven = false := by
  fun_induction remarks reported parts <;> simp_all [Remark.isUneven, Remark.atToken,
    Diagnostic.atToken, Diagnostic.of, Fault.isUneven]

namespace Line

lemma filter_unevenRows (expected row : Nat) (ls : List Line) :
    (unevenRows ⟨true⟩ expected row ls).filter o.keeps = unevenRows o expected row ls := by
  obtain ⟨warn⟩ := o
  induction ls generalizing row with
  | nil => rfl
  | cons l rest ih =>
    by_cases same : l.cellCount = expected
    · simp [unevenRows, same, ih]
    · cases warn <;> simp [unevenRows, same, ih, Options.keeps, Remark.isUneven, Diagnostic.of,
        Fault.isUneven]

lemma filter_tableRemarks (ls : List Line) :
    (tableRemarks ⟨true⟩ ls).filter o.keeps = tableRemarks o ls := by
  cases ls with
  | nil => rfl
  | cons l rest => exact filter_unevenRows o _ _ rest

end Line

lemma Block.filter_remarks (b : Block) : b.remarks.filter o.keeps = b.remarks := by
  refine Remark.filter_keeps o fun r hr => ?_
  rw [remarks] at hr
  split at hr
  · exact List.mem_singleton.mp hr ▸ rfl
  · cases hr

lemma Heading.filter_remarks (h : Heading) : h.remarks.filter o.keeps = h.remarks := by
  refine Remark.filter_keeps o fun r hr => ?_
  obtain ⟨l, -, hr⟩ := List.mem_flatMap.mp hr
  exact TagPart.even_of_mem_remarks false _ r hr

lemma Entry.filter_remarks {α : Type} {remarks : Options → α → List Remark} (context : Rule)
    (each : ∀ a, (remarks ⟨true⟩ a).filter o.keeps = remarks o a) (entries : List (Entry α)) :
    (entries.flatMap (Entry.remarks context (remarks ⟨true⟩))).filter o.keeps =
      entries.flatMap (Entry.remarks context (remarks o)) := by
  rw [List.filter_flatMap]
  refine List.flatMap_congr fun e _ => ?_
  cases e with
  | placed a => exact each a
  | stray i => exact Remark.filter_keeps o fun r hr => List.mem_singleton.mp hr ▸ rfl

lemma Step.filter_remarks (s : Step) : (s.remarks ⟨true⟩).filter o.keeps = s.remarks o := by
  rw [remarks, List.filter_append, List.filter_flatMap, Line.filter_tableRemarks]
  simp only [Block.filter_remarks]
  rfl

lemma Steps.filter_remarks (s : Steps) : (s.remarks ⟨true⟩).filter o.keeps = s.remarks o :=
  Entry.filter_remarks o .steps (Step.filter_remarks o) s.entries

lemma Examples.filter_remarks (e : Examples) : (e.remarks ⟨true⟩).filter o.keeps = e.remarks o := by
  rw [remarks, remarks, List.filter_append, Heading.filter_remarks]
  split
  · exact congrArg _ (Remark.filter_keeps o fun r hr => List.mem_singleton.mp hr ▸ rfl)
  · rw [Line.filter_tableRemarks]

namespace Scenario

lemma filter_examplesRemarks (s : Scenario) :
    (s.examplesRemarks ⟨true⟩).filter o.keeps = s.examplesRemarks o := by
  rw [examplesRemarks, examplesRemarks]
  split
  · split
    · exact Remark.filter_keeps o fun r hr => List.mem_singleton.mp hr ▸ rfl
    · simp only [List.filter_flatMap, Examples.filter_remarks]
  · have kept (t : Token) : o.keeps (.atToken .misplacedExamples t) := by
      rw [Options.keeps, Bool.or_eq_true]
      exact .inr rfl
    simp only [List.filter_flatMap, List.filter_cons_of_pos (kept _), Examples.filter_remarks]

lemma filter_remarks (s : Scenario) : (s.remarks ⟨true⟩).filter o.keeps = s.remarks o := by
  rw [remarks, List.filter_append, List.filter_append, Heading.filter_remarks,
    Steps.filter_remarks, filter_examplesRemarks, remarks]

end Scenario

lemma Scenarios.filter_remarks (s : Scenarios) : (s.remarks ⟨true⟩).filter o.keeps = s.remarks o :=
  Entry.filter_remarks o .scenarios (Scenario.filter_remarks o) s.entries

lemma Background.filter_remarks (b : Background) :
    (b.remarks ⟨true⟩).filter o.keeps = b.remarks o := by
  rw [remarks, List.filter_append, Heading.filter_remarks, Steps.filter_remarks, remarks]

lemma BusinessRule.filter_remarks (r : BusinessRule) :
    (r.remarks ⟨true⟩).filter o.keeps = r.remarks o := by
  rw [remarks, List.filter_append, List.filter_append, Heading.filter_remarks,
    List.filter_flatMap, Scenarios.filter_remarks]
  simp only [Background.filter_remarks]
  rfl

lemma Content.filter_remarks (c : Content) : (c.remarks ⟨true⟩).filter o.keeps = c.remarks o := by
  cases c with
  | scenarios s => exact s.filter_remarks o
  | rules es => exact Entry.filter_remarks o .businessRules (BusinessRule.filter_remarks o) es

lemma Opening.filter_remarks (front : Opening) : front.remarks.filter o.keeps = front.remarks := by
  have missing : (front.missing.toList.map MissingHeader.remark).filter o.keeps =
      front.missing.toList.map MissingHeader.remark := by
    refine Remark.filter_keeps o fun r hr => ?_
    obtain ⟨m, -, rfl⟩ := List.mem_map.mp hr
    rfl
  rw [remarks, List.filter_append, missing, List.filter_flatMap]
  simp only [Heading.filter_remarks]

/-- The option on uneven rows decides on the warnings of such rows and on nothing else. -/
theorem Feature.filter_remarks (f : Feature) : (f.remarks ⟨true⟩).filter o.keeps = f.remarks o := by
  rw [remarks, List.filter_append, List.filter_append, Opening.filter_remarks,
    List.filter_flatMap, Content.filter_remarks]
  simp only [Background.filter_remarks]
  rfl

end FeatureFile
