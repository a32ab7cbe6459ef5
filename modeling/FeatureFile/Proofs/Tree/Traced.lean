import FeatureFile.Proofs.Tree.Rank
import FeatureFile.View.Basic

/-!
Where nodes come from. To say that the nodes of some rules are made of parts of a document, it is
enough to say it of each of the trees that the document is put together from.
-/

namespace FeatureFile

open FeatureFile.Tree (leaf node built nodesOf)

namespace View

variable {rule : Rule}

lemma rule?_tree (v : View rule) : v.tree.rule? = some rule :=
  of_decide_eq_true v.ofRule

lemma any_rule?_tree {sort : Rule → Bool} (here : sort rule) (v : View rule) :
    v.tree.rule?.any sort := by
  rw [v.rule?_tree]
  exact here

lemma tree_mem {ts : List Tree} {v : View rule} (h : v ∈ ts.filterMap (cast? rule)) : v.tree ∈ ts := by
  obtain ⟨t, ht, view⟩ := List.mem_filterMap.mp h
  obtain ⟨kind, same⟩ := Option.dite_none_right_eq_some.mp view
  obtain rfl := Option.some.inj same
  exact ht

end View

def Traced {α : Type} (sort : Rule → Bool) (made : α → Tree → Prop) (parts : List α)
    (ts : List Tree) : Prop :=
  ∀ n ∈ nodesOf ts, n.rule?.any sort → ∃ a ∈ parts, made a n

namespace Traced

variable {α : Type} {sort : Rule → Bool} {made : α → Tree → Prop} {parts parts' : List α}
  {ts us : List Tree}

lemma mono (h : Traced sort made parts ts) (sub : parts ⊆ parts') : Traced sort made parts' ts := by
  intro n hn part
  obtain ⟨a, ha, here⟩ := h n hn part
  exact ⟨a, sub ha, here⟩

lemma append (h : Traced sort made parts ts) (h' : Traced sort made parts' us) :
    Traced sort made (parts ++ parts') (ts ++ us) := by
  intro n hn part
  rw [Tree.nodesOf_append] at hn
  rcases List.mem_append.mp hn with hn | hn
  · exact (h.mono (List.subset_append_left _ _)) n hn part
  · exact (h'.mono (List.subset_append_right _ _)) n hn part

lemma flatMap {β : Type} {i : β → List α} {f : β → List Tree} {bs : List β}
    (h : ∀ b ∈ bs, Traced sort made (i b) (f b)) : Traced sort made (bs.flatMap i) (bs.flatMap f) := by
  induction bs with
  | nil => simp [Traced]
  | cons b bs ih =>
    obtain ⟨first, rest⟩ := List.forall_mem_cons.mp h
    exact first.append (ih rest)

lemma map {β : Type} {i : β → List α} {f : β → Tree} {bs : List β}
    (h : ∀ b ∈ bs, Traced sort made (i b) [f b]) : Traced sort made (bs.flatMap i) (bs.map f) := by
  have whole := flatMap h
  rwa [← List.map_eq_flatMap] at whole

lemma map_plain {β : Type} {f : β → Tree} {bs : List β} (h : ∀ b ∈ bs, Traced sort made [] [f b]) :
    Traced sort made [] (bs.map f) := by
  have none : bs.flatMap (fun _ => ([] : List α)) = [] := by simp
  exact none ▸ map h

lemma leaves (tokens : List Token) : Traced sort made [] (tokens.map leaf) := by
  simp [Traced]

lemma node (rule : Rule) (other : sort rule = false) (anchor : Mark) (recovered : Bool)
    (h : Traced sort made parts ts) : Traced sort made parts [node rule anchor recovered ts] := by
  intro n hn part
  rw [Tree.nodesOf_cons, Tree.nodes_node, Tree.nodesOf_nil, List.append_nil] at hn
  rcases List.mem_cons.mp hn with rfl | hn
  · simp [Tree.rule?, other] at part
  · exact h n hn part

lemma part {a : α} {n : Tree} (here : made a n) (below : Traced sort made parts n.children) :
    Traced sort made (a :: parts) [n] := by
  intro m hm part
  cases n with
  | leaf t => simp at hm
  | node rule anchor recovered cs =>
    rw [Tree.nodesOf_cons, Tree.nodes_node, Tree.nodesOf_nil, List.append_nil] at hm
    rcases List.mem_cons.mp hm with rfl | hm
    · exact ⟨a, List.mem_cons_self, here⟩
    · obtain ⟨a', ha, here'⟩ := below m hm part
      exact ⟨a', List.mem_cons_of_mem a ha, here'⟩

lemma of_rank_lt {n : Nat} (low : ∀ m ∈ nodesOf ts, m.rank < n)
    (high : ∀ rule, sort rule → n ≤ rule.rank) : Traced sort made [] ts := by
  intro m hm part
  cases m with
  | leaf t => cases part
  | node rule anchor recovered cs => exact absurd (low _ hm) (Nat.not_lt.mpr (high rule part))

end Traced

end FeatureFile
