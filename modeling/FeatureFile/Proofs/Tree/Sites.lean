import FeatureFile.Document.Remarks
import FeatureFile.Proofs.Tree.Rank
import FeatureFile.Proofs.Tree.Sections

namespace FeatureFile

open FeatureFile.Tree (leaf node built nodesOf)

def Rule.isSite : Rule → Bool
  | feature | tags | tag | scenarios | scenario | scenarioOutline | steps | docStrings
  | examples => true
  | _ => false

def Rule.takesStray : Rule → Bool
  | tags | steps | scenarios => true
  | _ => false

lemma Rule.isSite_of_takesStray (r : Rule) (h : r.takesStray) : r.isSite := by
  cases r <;> first | rfl | cases h

namespace Fault

def isOwn : Fault → Bool
  | emptyTag | missingTable | missingExamples | misplacedExamples => true
  | _ => false

def isMissingFeature : Fault → Bool
  | missingFeature _ => true
  | _ => false

end Fault

namespace Tree

@[simp] lemma ofRule_node (rule : Rule) (anchor : Mark) (recovered : Bool) (cs : List Tree)
    (r : Rule) : (node rule anchor recovered cs).ofRule r = decide (rule = r) := by
  simp [ofRule, rule?]

@[simp] lemma recovered_node (rule : Rule) (anchor : Mark) (flag : Bool) (cs : List Tree) :
    (node rule anchor flag cs).recovered = flag :=
  rfl

def sign? (n : Tree) : Option Token :=
  n.ownTokens.find? (·.kind = .atSign)

/-- Where a fault of this sort is told of, if the node has it: a tag at its sign, a section at its
keyword, and examples in a plain scenario where each of them begins. -/
def faultsAt (f : Fault) (n : Tree) : List (Option Token) :=
  match f with
  | .emptyTag => if n.ofRule .tag && n.recovered then [n.sign?] else []
  | .missingTable => if n.ofRule .examples && n.recovered then [n.keyword?] else []
  | .missingExamples => if n.ofRule .scenarioOutline && n.recovered then [n.keyword?] else []
  | .misplacedExamples =>
    if n.ofRule .scenario then (n.childrenOf .examples).map (·.leaves.head?) else []
  | _ => []

structure IsFlagged (n : Tree) : Prop where
  site : n.recovered → ∃ r, n.rule? = some r ∧ r.isSite
  examples : n.ofRule .examples → (n.recovered ↔ n.child? .table = none)
  outline : n.ofRule .scenarioOutline → (n.recovered ↔ n.child? .examples = none)
  scenario : n.ofRule .scenario → (n.recovered ↔ n.child? .examples ≠ none)
  stray : ∀ r, n.rule? = some r → r.takesStray → (n.recovered ↔ n.ownTokens ≠ [])

lemma ofRule_of_isSite {n : Tree} {r site : Rule} (rule : n.rule? = some r)
    (other : r.isSite = false) (isSite : site.isSite) : n.ofRule site = false := by
  refine decide_eq_false fun same => ?_
  obtain rfl := Option.some.inj (rule.symm.trans same)
  rw [other] at isSite
  cases isSite

lemma IsFlagged.of_not_isSite {n : Tree} {r : Rule} (rule : n.rule? = some r)
    (other : r.isSite = false) (flag : n.recovered = false) : n.IsFlagged := by
  have none (site : Rule) (isSite : site.isSite) : ¬ n.ofRule site := by
    simp [ofRule_of_isSite rule other isSite]
  refine ⟨by simp [flag], fun here => absurd here (none _ rfl), fun here => absurd here (none _ rfl),
    fun here => absurd here (none _ rfl), fun r' same stray => ?_⟩
  obtain rfl := Option.some.inj (rule.symm.trans same)
  rw [r.isSite_of_takesStray stray] at other
  cases other

lemma ofRule_of_takesStray {n : Tree} {r site : Rule} (rule : n.rule? = some r)
    (takes : r.takesStray) (other : site.takesStray = false) : n.ofRule site = false := by
  refine decide_eq_false fun same => ?_
  obtain rfl := Option.some.inj (rule.symm.trans same)
  rw [takes] at other
  cases other

lemma IsFlagged.of_takesStray {n : Tree} {r : Rule} (rule : n.rule? = some r)
    (takes : r.takesStray) (only : n.recovered ↔ n.ownTokens ≠ []) : n.IsFlagged := by
  have none (site : Rule) (other : site.takesStray = false) : ¬ n.ofRule site := by
    simp [ofRule_of_takesStray rule takes other]
  exact ⟨fun _ => ⟨r, rule, r.isSite_of_takesStray takes⟩, fun here => absurd here (none _ rfl),
    fun here => absurd here (none _ rfl), fun here => absurd here (none _ rfl), fun _ _ _ => only⟩

lemma faultsAt_of_not_isSite {f : Fault} {n : Tree} {r : Rule} (rule : n.rule? = some r)
    (other : r.isSite = false) : n.faultsAt f = [] := by
  have none (site : Rule) (isSite : site.isSite) : n.ofRule site = false :=
    ofRule_of_isSite rule other isSite
  cases f <;> simp [faultsAt, none .tag rfl, none .examples rfl, none .scenarioOutline rfl,
    none .scenario rfl]

/-- Content that has no place is told of in a node that takes it in, at a token of its own. -/
def TakesIn (n : Tree) (found : TokenKind) (context : Rule) (d : Diagnostic) : Prop :=
  n.rule? = some context ∧ context.takesStray ∧ n.recovered ∧
    ∃ t ∈ n.ownTokens, t.kind = found ∧ d = .atToken (.unexpected found context) t

end Tree

namespace Remark

def told (f : Fault) (rs : List Remark) : List Diagnostic :=
  (rs.filterMap diagnostic?).filter (·.fault = f)

@[simp] lemma told_nil (f : Fault) : told f [] = [] :=
  rfl

@[simp] lemma told_append (f : Fault) (rs rs' : List Remark) :
    told f (rs ++ rs') = told f rs ++ told f rs' := by
  simp [told]

@[simp] lemma told_cons_atToken (f g : Fault) (t : Token) (rs : List Remark) :
    told f (.atToken g t :: rs) = (if g = f then [.atToken g t] else []) ++ told f rs := by
  by_cases same : g = f <;>
    simp [told, atToken, diagnostic?, Diagnostic.atToken, Diagnostic.of, same]

@[simp] lemma told_map_atToken {α : Type} (f g : Fault) (t : α → Token) (as : List α) :
    told f (as.map fun a => .atToken g (t a)) =
      if g = f then as.map fun a => .atToken g (t a) else [] := by
  induction as with
  | nil => simp
  | cons a as ih => by_cases same : g = f <;> simp_all

lemma told_perm (f : Fault) {rs rs' : List Remark} (h : rs.Perm rs') :
    (told f rs).Perm (told f rs') :=
  (h.filterMap _).filter _

end Remark

open Remark (told)

/-- Trees and remarks tell of the same faults: those of single nodes one by one, and content without
a place in every node that takes it in. -/
structure Sites (ts : List Tree) (rs : List Remark) : Prop where
  flagged : ∀ n ∈ nodesOf ts, n.IsFlagged
  own : ∀ f, f.isOwn → ((told f rs).map some).Perm
    (((nodesOf ts).flatMap (Tree.faultsAt f)).map (Option.map (.atToken f)))
  found : ∀ d found context, .fault d ∈ rs → d.fault = .unexpected found context →
    ∃ n ∈ nodesOf ts, n.TakesIn found context d
  taken : ∀ n ∈ nodesOf ts, ∀ r, n.rule? = some r → r.takesStray → n.recovered →
    ∃ t ∈ n.ownTokens, .atToken (.unexpected t.kind r) t ∈ rs
  headed : ∀ d, .fault d ∈ rs → d.fault.isMissingFeature = false

namespace Sites

variable {ts us : List Tree} {rs rs' : List Remark}

lemma nil : Sites [] [] :=
  ⟨by simp, by simp, by simp, by simp, by simp⟩

lemma append (h : Sites ts rs) (h' : Sites us rs') : Sites (ts ++ us) (rs ++ rs') where
  flagged := by simpa [or_imp, forall_and] using ⟨h.flagged, h'.flagged⟩
  own f hf := by
    simpa only [Remark.told_append, Tree.nodesOf_append, List.map_append, List.flatMap_append] using
      (h.own f hf).append (h'.own f hf)
  found d found context hd fault := by
    rw [Tree.nodesOf_append]
    rcases List.mem_append.mp hd with hd | hd
    · obtain ⟨n, hn, takes⟩ := h.found d found context hd fault
      exact ⟨n, List.mem_append_left _ hn, takes⟩
    · obtain ⟨n, hn, takes⟩ := h'.found d found context hd fault
      exact ⟨n, List.mem_append_right _ hn, takes⟩
  taken n hn r rule stray recovered := by
    rw [Tree.nodesOf_append] at hn
    rcases List.mem_append.mp hn with hn | hn
    · obtain ⟨t, ht, hr⟩ := h.taken n hn r rule stray recovered
      exact ⟨t, ht, List.mem_append_left _ hr⟩
    · obtain ⟨t, ht, hr⟩ := h'.taken n hn r rule stray recovered
      exact ⟨t, ht, List.mem_append_right _ hr⟩
  headed d hd := (List.mem_append.mp hd).elim (h.headed d) (h'.headed d)

lemma flatMap {α : Type} {f : α → List Tree} {r : α → List Remark} {as : List α}
    (h : ∀ a ∈ as, Sites (f a) (r a)) : Sites (as.flatMap f) (as.flatMap r) := by
  induction as with
  | nil => exact nil
  | cons a as ih =>
    obtain ⟨first, rest⟩ := List.forall_mem_cons.mp h
    exact first.append (ih rest)

lemma map {α : Type} {f : α → Tree} {r : α → List Remark} {as : List α}
    (h : ∀ a ∈ as, Sites [f a] (r a)) : Sites (as.map f) (as.flatMap r) := by
  have whole := flatMap h
  rwa [← List.map_eq_flatMap] at whole

lemma perm (h : Sites ts rs) (same : rs.Perm rs') : Sites ts rs' where
  flagged := h.flagged
  own f hf := ((Remark.told_perm f same.symm).map some).trans (h.own f hf)
  found d found context hd := h.found d found context (same.mem_iff.mpr hd)
  taken n hn r rule stray recovered := by
    obtain ⟨t, ht, hr⟩ := h.taken n hn r rule stray recovered
    exact ⟨t, ht, same.mem_iff.mp hr⟩
  headed d hd := h.headed d (same.mem_iff.mpr hd)

lemma node {n : Tree} (isNode : n.isNode) (flagged : n.IsFlagged) (h : Sites n.children rs)
    {own : List Remark}
    (told : ∀ f, f.isOwn → (told f own).map some = (n.faultsAt f).map (Option.map (.atToken f)))
    (found : ∀ d, .fault d ∈ own → d.fault.isMissingFeature = false ∧
      ∀ found context, d.fault = .unexpected found context → n.TakesIn found context d)
    (taken : ∀ r, n.rule? = some r → r.takesStray → n.recovered →
      ∃ t ∈ n.ownTokens, .atToken (.unexpected t.kind r) t ∈ own ++ rs) :
    Sites [n] (own ++ rs) := by
  have nodes : nodesOf [n] = n :: nodesOf n.children := by
    rw [Tree.nodesOf_singleton isNode, Tree.descendants_eq_nodesOf]
  refine ⟨?_, fun f hf => ?_, fun d f context hd fault => ?_, fun m hm r rule stray recovered => ?_,
    fun d hd => ?_⟩
  · rw [nodes]
    exact List.forall_mem_cons.mpr ⟨flagged, h.flagged⟩
  · rw [nodes, List.flatMap_cons, List.map_append, Remark.told_append, List.map_append, told f hf]
    exact (h.own f hf).append_left _
  · rw [nodes]
    rcases List.mem_append.mp hd with hd | hd
    · exact ⟨n, List.mem_cons_self, (found d hd).2 f context fault⟩
    · obtain ⟨m, hm, takes⟩ := h.found d f context hd fault
      exact ⟨m, List.mem_cons_of_mem _ hm, takes⟩
  · rw [nodes] at hm
    rcases List.mem_cons.mp hm with rfl | hm
    · exact taken r rule stray recovered
    · obtain ⟨t, ht, hr⟩ := h.taken m hm r rule stray recovered
      exact ⟨t, ht, List.mem_append_right _ hr⟩
  · exact (List.mem_append.mp hd).elim (fun hd => (found d hd).1) (h.headed d)

lemma ownNode {n : Tree} {r : Rule} (rule : n.rule? = some r) (other : r.takesStray = false)
    (flagged : n.IsFlagged) (h : Sites n.children rs) (own : List Remark)
    (told : ∀ f, f.isOwn → (told f own).map some = (n.faultsAt f).map (Option.map (.atToken f)))
    (faults : ∀ r ∈ own, ∃ f t, f.isOwn ∧ r = .atToken f t) : Sites [n] (own ++ rs) := by
  refine h.node (by simp [Tree.isNode, rule]) flagged told (fun d hd => ?_) fun r' same stray => ?_
  · obtain ⟨f, t, hf, same⟩ := faults _ hd
    obtain rfl := Remark.fault.inj same
    refine ⟨?_, fun found context unexpected => ?_⟩
    · cases f <;> first | rfl | cases hf
    · obtain rfl : f = .unexpected found context := unexpected
      cases hf
  · obtain rfl := Option.some.inj (rule.symm.trans same)
    simp [other] at stray

lemma strayNode {n : Tree} {context : Rule} (rule : n.rule? = some context)
    (takes : context.takesStray) (flagged : n.IsFlagged) (h : Sites n.children rs)
    {own : List Remark}
    (stray : ∀ r ∈ own, ∃ t ∈ n.ownTokens, r = .atToken (.unexpected t.kind context) t)
    (taken : n.ownTokens ≠ [] → ∃ t ∈ n.ownTokens, .atToken (.unexpected t.kind context) t ∈ own) :
    Sites [n] (own ++ rs) := by
  have only := flagged.stray context rule takes
  refine h.node (by simp [Tree.isNode, rule]) flagged (fun f hf => ?_) (fun d hd => ?_)
    fun r same _ recovered => ?_
  · have none : told f own = [] := by
      rw [told, List.filter_eq_nil_iff]
      intro d hd same
      obtain ⟨r, hr, here⟩ := List.mem_filterMap.mp hd
      obtain ⟨t, -, rfl⟩ := stray r hr
      obtain rfl := Option.some.inj here
      obtain rfl := of_decide_eq_true same
      cases hf
    have other (site : Rule) (keeps : site.takesStray = false) : n.ofRule site = false :=
      Tree.ofRule_of_takesStray rule takes keeps
    rw [none]
    cases f <;> simp [Tree.faultsAt, other .tag rfl, other .examples rfl,
      other .scenarioOutline rfl, other .scenario rfl]
  · obtain ⟨t, ht, same⟩ := stray _ hd
    obtain rfl := Remark.fault.inj same
    refine ⟨rfl, fun found context' fault => ?_⟩
    obtain ⟨rfl, rfl⟩ := Fault.unexpected.inj fault
    exact ⟨rule, takes, only.mpr (List.ne_nil_of_mem ht), t, ht, rfl, rfl⟩
  · obtain rfl := Option.some.inj (rule.symm.trans same)
    obtain ⟨t, ht, hr⟩ := taken (only.mp recovered)
    exact ⟨t, ht, List.mem_append_left _ hr⟩

lemma built {rule : Rule} (anchor : Mark) (other : rule.isSite = false) (h : Sites ts rs) :
    Sites [Tree.built rule anchor ts] rs := by
  have stays : rule.takesStray = false := by
    rw [Bool.eq_false_iff]
    intro stray
    simp [rule.isSite_of_takesStray stray] at other
  refine ownNode (n := Tree.built rule anchor ts) rfl stays (.of_not_isSite rfl other rfl) h
    [] (fun f _ => ?_) (by simp)
  rw [Tree.faultsAt_of_not_isSite rfl other]
  rfl

end Sites

def Rule.isCalm : Rule → Bool
  | name | parameter | description | docStringsValue | table | tableHead | tableRows | tableRow
  | tableCell | tableCellValue => true
  | _ => false

def Part.isCalm : Part → Bool
  | token _ => true
  | child rule => rule.isCalm

lemma Rule.isCalm_of_mem_letters (r : Rule) (calm : r.isCalm) :
    ∀ a ∈ Shape.letters r.shape, a.isCalm := by
  cases r <;> revert calm <;> decide

lemma Rule.isSite_of_isCalm (r : Rule) (h : r.isCalm) : r.isSite = false := by
  cases r <;> first | rfl | cases h

namespace Tree

lemma recovered_of_anyError {ts : List Tree} (h : anyError ts = false) :
    ∀ n ∈ nodesOf ts, n.recovered = false := by
  rw [anyError_eq_any, List.any_eq_false] at h
  exact fun n hn => Bool.eq_false_iff.mpr (h n hn)

end Tree

lemma Sites.calm {e : RegularExpression Part} {ts : List Tree} (fits : Tree.Fits e ts)
    (calm : ∀ a ∈ Shape.letters e, a.isCalm) (error : Tree.anyError ts = false) : Sites ts [] := by
  have parts := Tree.part_of_mem_nodesOf (S := fun a => a.isCalm)
    (fun r => r.isCalm_of_mem_letters) fits.nodes
    fun t ht => calm _ (Shape.mem_letters fits.word _ (List.mem_map_of_mem ht))
  have plain : ∀ n ∈ nodesOf ts, ∃ r, n.rule? = some r ∧ r.isSite = false := by
    intro n hn
    obtain ⟨r, rule, -⟩ := fits.nodes n hn
    have part : n.part = .child r := by
      cases n <;> cases rule
      rfl
    have here := parts n hn
    rw [part] at here
    exact ⟨r, rule, r.isSite_of_isCalm here⟩
  have flags := Tree.recovered_of_anyError error
  refine ⟨fun n hn => ?_, fun f _ => ?_, by simp, fun n hn r _ _ recovered => ?_, by simp⟩
  · obtain ⟨r, rule, other⟩ := plain n hn
    exact .of_not_isSite rule other (flags n hn)
  · have none : (nodesOf ts).flatMap (Tree.faultsAt f) = [] := by
      refine List.flatMap_eq_nil_iff.mpr fun n hn => ?_
      obtain ⟨r, rule, other⟩ := plain n hn
      exact Tree.faultsAt_of_not_isSite rule other
    rw [none]
    exact .refl _
  · rw [flags n hn] at recovered
    cases recovered

end FeatureFile
