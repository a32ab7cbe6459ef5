import FeatureFile.Proofs.Diagnostics
import FeatureFile.Proofs.Tree.SectionSites

namespace FeatureFile

open FeatureFile.Tree (node nodesOf)
open Remark (told)

def Fault.isOfSite : Fault → Bool
  | lexical _ | unevenRow _ _ _ => false
  | _ => true

lemma Fault.isOfSite_of_isOwn {f : Fault} (own : f.isOwn) : f.isOfSite := by
  cases f <;> first | rfl | cases own

lemma Fault.isOfSite_of_isMissingFeature {f : Fault} (missing : f.isMissingFeature) :
    f.isOfSite := by
  cases f <;> first | rfl | cases missing

namespace Feature

variable (o : Options)

def innerRemarks (f : Feature) : List Remark :=
  f.opening.heading.toList.flatMap Heading.remarks ++
    f.background.toList.flatMap (Background.remarks o) ++ f.content.remarks o

lemma remarks_eq (f : Feature) :
    f.remarks o = f.opening.missing.toList.map MissingHeader.remark ++ f.innerRemarks o := by
  simp [remarks, Opening.remarks, innerRemarks]

lemma fault_mem_remarks {f : Feature} {d : Diagnostic} (other : d.fault.isMissingFeature = false) :
    .fault d ∈ f.remarks o ↔ .fault d ∈ f.innerRemarks o := by
  have apart : .fault d ∉ f.opening.missing.toList.map MissingHeader.remark := by
    intro h
    obtain ⟨m, -, same⟩ := List.mem_map.mp h
    obtain rfl := Remark.fault.inj same
    cases other
  rw [remarks_eq, List.mem_append, or_iff_right apart]

lemma isFlagged_root (f : Feature) : f.tree.IsFlagged :=
  ⟨fun _ => ⟨.feature, rfl, rfl⟩, by simp [tree], by simp [tree], by simp [tree],
    by rintro r ⟨⟩ ⟨⟩⟩

lemma faultsAt_root (f : Feature) {fault : Fault} : f.tree.faultsAt fault = [] := by
  cases fault <;> simp [tree, Tree.faultsAt]

end Feature

namespace Parsed

variable {options : Options} {text : List Char}

lemma filter_diagnostics_perm (options : Options) (text : List Char) {q : Diagnostic → Bool}
    (site : ∀ d, q d → d.fault.isOfSite) :
    ((parse options text).diagnostics.filter q).Perm
      (((parse options text).remarks.filterMap Remark.diagnostic?).filter q) := by
  let p := parse options text
  have sorted : (p.diagnostics.filter q).Perm (p.reported.filter q) :=
    (List.mergeSort_perm _ _).filter q
  have reports : (p.stream.reports.map Diagnostic.ofReport).filter q = [] := by
    refine List.filter_eq_nil_iff.mpr fun d hd here => ?_
    obtain ⟨r, -, rfl⟩ := List.mem_map.mp hd
    cases site _ here
  rwa [reported, List.filter_append, reports, List.nil_append] at sorted

lemma mem_diagnostics_of_isOfSite {d : Diagnostic} (site : d.fault.isOfSite) :
    d ∈ (parse options text).diagnostics ↔ .fault d ∈ (parse options text).remarks := by
  rw [mem_diagnostics]
  constructor
  · rintro (⟨r, -, rfl⟩ | h)
    · cases site
    · exact h
  · exact .inr

lemma sites_children : Sites (parse options text).root.children
    ((parse options text).feature.innerRemarks options) :=
  Feature.sites_children options isFormed isLexed

lemma countP_isMissingFeature :
    (parse options text).diagnostics.countP (·.fault.isMissingFeature) =
      if (parse options text).root.recovered then 1 else 0 := by
  let f := (parse options text).feature
  have same := filter_diagnostics_perm options text
    (q := (·.fault.isMissingFeature)) fun _ => Fault.isOfSite_of_isMissingFeature
  have below : ((f.innerRemarks options).filterMap Remark.diagnostic?).countP (·.fault.isMissingFeature) = 0 := by
    refine List.countP_eq_zero.mpr fun d hd => ?_
    obtain ⟨r, hr, here⟩ := List.mem_filterMap.mp hd
    cases r with
    | openBlock => cases here
    | fault d' =>
      obtain rfl := Option.some.inj here
      simp [sites_children.headed d' hr]
  have flag : (parse options text).root.recovered = f.opening.missing.isSome := rfl
  rw [List.countP_eq_length_filter, same.length_eq, ← List.countP_eq_length_filter, flag,
    remarks_parse, ← feature_parse options, Feature.remarks_eq, List.filterMap_append, List.countP_append, below]
  cases f.opening.missing <;> rfl

lemma told_perm {f : Fault} (own : f.isOwn) :
    ((parse options text).diagnostics.filter (·.fault = f)).Perm
      (told f ((parse options text).feature.innerRemarks options)) := by
  have same := filter_diagnostics_perm options text (q := (·.fault = f)) fun d here =>
    of_decide_eq_true here ▸ Fault.isOfSite_of_isOwn own
  have front (m : Option MissingHeader) : told f (m.toList.map MissingHeader.remark) = [] := by
    cases m with
    | none => rfl
    | some m => cases f <;> first | rfl | cases own
  have whole : told f (parse options text).remarks =
      told f ((parse options text).feature.innerRemarks options) := by
    rw [remarks_parse, ← feature_parse options, Feature.remarks_eq, Remark.told_append, front, List.nil_append]
  exact whole ▸ same

/-- Each fault in the structure is told of at the node that is flagged for it, and each flagged node
has its fault told: a missing feature header at the root, faults of single nodes one by one, and
content without a place in the node that takes it in. The flag itself can be read off the
children. -/
theorem recovered_corresponds (options : Options) (text : List Char) :
    let p := parse options text
    let nodes := p.root :: p.root.descendants
    (∀ n ∈ nodes, n.IsFlagged) ∧
      p.diagnostics.countP (·.fault.isMissingFeature) = (if p.root.recovered then 1 else 0) ∧
      (∀ f, f.isOwn → ((p.diagnostics.filter (·.fault = f)).map some).Perm
        ((nodes.flatMap (Tree.faultsAt f)).map (Option.map (.atToken f)))) ∧
      (∀ d ∈ p.diagnostics, ∀ found context, d.fault = .unexpected found context →
        ∃ n ∈ nodes, n.TakesIn found context d) ∧
      ∀ n ∈ nodes, ∀ r, n.rule? = some r → r.takesStray →
        (n.recovered ↔ ∃ t ∈ n.ownTokens, .atToken (.unexpected t.kind r) t ∈ p.diagnostics) := by
  intro p nodes
  have sites : Sites p.root.children (p.feature.innerRemarks options) := sites_children
  have split : nodes = p.root :: nodesOf p.root.children := by
    rw [← Tree.descendants_eq_nodesOf]
  have flagged : ∀ n ∈ nodes, n.IsFlagged := by
    rw [split]
    exact List.forall_mem_cons.mpr ⟨p.feature.isFlagged_root, sites.flagged⟩
  refine ⟨flagged, countP_isMissingFeature, fun f own => ?_, fun d hd found context fault => ?_,
    fun n hn r rule takes => ⟨fun recovered => ?_, fun ⟨t, ht, _⟩ => ?_⟩⟩
  · have root : p.root.faultsAt f = [] := p.feature.faultsAt_root
    rw [split, List.flatMap_cons, root, List.nil_append]
    exact ((told_perm own).map some).trans (sites.own f own)
  · have here := (mem_diagnostics_of_isOfSite (fault ▸ rfl)).mp hd
    have inner := (Feature.fault_mem_remarks options (by rw [fault]; rfl)).mp here
    obtain ⟨n, hn, takesIn⟩ := sites.found d found context inner fault
    exact ⟨n, split ▸ List.mem_cons_of_mem _ hn, takesIn⟩
  · rw [split] at hn
    rcases List.mem_cons.mp hn with rfl | hn
    · obtain rfl : Rule.feature = r := Option.some.inj rule
      cases takes
    · obtain ⟨t, ht, told⟩ := sites.taken n hn r rule takes recovered
      have here := (Feature.fault_mem_remarks options rfl).mpr told
      exact ⟨t, ht, (mem_diagnostics_of_isOfSite rfl).mpr here⟩
  · exact ((flagged n hn).stray r rule takes).mpr (List.ne_nil_of_mem ht)

end Parsed

end FeatureFile
