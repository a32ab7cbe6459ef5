import FeatureFile.Proofs.Tree.Shape

/-!
Ranks of rules. The shapes let a node have children of lower rank only, so the rules that occur below
a node are bounded by its own.
-/

namespace FeatureFile

open FeatureFile.Tree (nodesOf)

namespace Shape

def letters : RegularExpression Part → List Part
  | .zero => []
  | .epsilon => []
  | .char a => [a]
  | .plus e e' => letters e ++ letters e'
  | .comp e e' => letters e ++ letters e'
  | .star e => letters e

lemma mem_letters {e : RegularExpression Part} {w : List Part} (h : w ∈ e.matches') :
    ∀ a ∈ w, a ∈ letters e := by
  induction e generalizing w with
  | zero => cases h
  | epsilon =>
    obtain rfl : w = [] := h
    simp
  | char a =>
    obtain rfl : w = [a] := h
    simp [letters]
  | plus e e' ih ih' =>
    rcases h with h | h
    · exact fun a ha => List.mem_append_left _ (ih h a ha)
    · exact fun a ha => List.mem_append_right _ (ih' h a ha)
  | comp e e' ih ih' =>
    obtain ⟨u, hu, v, hv, rfl⟩ := h
    exact List.forall_mem_append.mpr ⟨fun a ha => List.mem_append_left _ (ih hu a ha),
      fun a ha => List.mem_append_right _ (ih' hv a ha)⟩
  | star e ih =>
    obtain ⟨words, rfl, each⟩ := Language.mem_kstar.mp h
    intro a ha
    obtain ⟨u, hu, ha⟩ := List.mem_flatten.mp ha
    exact ih (each u hu) a ha

end Shape

def Rule.rank : Rule → Nat
  | tag | parameter | description | docStringsValue | tableCellValue => 1
  | tags | name | docStrings | tableCell => 2
  | tableRow => 3
  | tableHead | tableRows => 4
  | table => 5
  | step => 6
  | steps | examples => 7
  | background => 8
  | scenario | scenarioOutline => 9
  | scenarios => 10
  | businessRule => 11
  | businessRules => 12
  | featureBody => 13
  | feature => 14

def Part.rank : Part → Nat
  | token _ => 0
  | child rule => rule.rank

lemma Rule.rank_lt_of_mem_letters (r : Rule) : ∀ a ∈ Shape.letters r.shape, a.rank < r.rank := by
  cases r <;> decide

namespace Tree

def rank (t : Tree) : Nat :=
  t.part.rank

lemma mem_nodesOf {ts : List Tree} {m : Tree} : m ∈ nodesOf ts ↔ ∃ t ∈ ts, m ∈ t.nodes := by
  induction ts with
  | nil => simp
  | cons t ts ih => simp [ih]

lemma rank_lt_of_mem_children {t : Tree} (h : t.IsShaped) : ∀ u ∈ t.children, u.rank < t.rank := by
  obtain ⟨rule, kind, word⟩ := h
  cases t with
  | leaf => cases kind
  | node rule' anchor recovered cs =>
    obtain rfl := Option.some.inj kind
    intro u hu
    exact Rule.rank_lt_of_mem_letters _ _ (Shape.mem_letters word _ (List.mem_map_of_mem hu))

lemma forall_nodes {P : Tree → Prop} (closed : ∀ t, P t → ∀ u ∈ t.children, P u) (t : Tree)
    (h : P t) : ∀ m ∈ t.nodes, P m := by
  match t with
  | leaf t => simp
  | node rule anchor recovered cs =>
    rw [nodes_node]
    refine List.forall_mem_cons.mpr ⟨h, fun m hm => ?_⟩
    obtain ⟨u, hu, hm⟩ := mem_nodesOf.mp hm
    exact forall_nodes closed u (closed _ h u hu) m hm
termination_by sizeOf t
decreasing_by
  have := List.sizeOf_lt_of_mem hu
  simp only [node.sizeOf_spec]
  omega

lemma mem_nodesOf_of_mem_children {ts : List Tree} {n u : Tree} (hn : n ∈ nodesOf ts)
    (hu : u ∈ n.children) (isNode : u.isNode) : u ∈ nodesOf ts := by
  have below (t : Tree) (h : t.nodes ⊆ nodesOf ts) : ∀ v ∈ t.children, v.nodes ⊆ nodesOf ts := by
    intro v hv m hm
    cases t with
    | leaf => cases hv
    | node rule anchor recovered cs =>
      refine h ?_
      rw [nodes_node]
      exact List.mem_cons_of_mem _ (mem_nodesOf.mpr ⟨v, hv, hm⟩)
  obtain ⟨t, ht, hn⟩ := mem_nodesOf.mp hn
  have top : t.nodes ⊆ nodesOf ts := fun m hm => mem_nodesOf.mpr ⟨t, ht, hm⟩
  refine below n (forall_nodes below t top n hn) u hu ?_
  cases u with
  | leaf => cases isNode
  | node rule anchor recovered cs =>
    rw [nodes_node]
    exact List.mem_cons_self

lemma part_of_mem_nodesOf {S : Part → Prop} {ts : List Tree}
    (closed : ∀ r, S (.child r) → ∀ a ∈ Shape.letters r.shape, S a)
    (shaped : ∀ m ∈ nodesOf ts, m.IsShaped) (top : ∀ t ∈ ts, S t.part) :
    ∀ m ∈ nodesOf ts, S m.part := by
  intro m hm
  obtain ⟨t, ht, hm⟩ := mem_nodesOf.mp hm
  have inner : ∀ u ∈ t.nodes, u.IsShaped := fun u hu => shaped u (mem_nodesOf.mpr ⟨t, ht, hu⟩)
  refine (forall_nodes (P := fun t => (∀ u ∈ t.nodes, u.IsShaped) ∧ S t.part) ?_ t
    ⟨inner, top t ht⟩ m hm).2
  intro t ⟨shaped, part⟩ u hu
  cases t with
  | leaf => cases hu
  | node rule anchor recovered cs =>
    rw [nodes_node] at shaped
    obtain ⟨⟨rule', kind, word⟩, below⟩ := List.forall_mem_cons.mp shaped
    obtain rfl := Option.some.inj kind
    exact ⟨fun v hv => below v (mem_nodesOf.mpr ⟨u, hu, hv⟩),
      closed _ part _ (Shape.mem_letters word _ (List.mem_map_of_mem hu))⟩

lemma rank_lt_of_mem_nodesOf {n : Nat} {ts : List Tree} (shaped : ∀ m ∈ nodesOf ts, m.IsShaped)
    (top : ∀ t ∈ ts, t.rank < n) : ∀ m ∈ nodesOf ts, m.rank < n :=
  part_of_mem_nodesOf (S := fun a => a.rank < n)
    (fun r low a ha => Nat.lt_trans (r.rank_lt_of_mem_letters a ha) low) shaped top

lemma Fits.rank_lt_of_mem {e : RegularExpression Part} {ts : List Tree} {n : Nat} (h : Fits e ts)
    (low : ∀ a ∈ Shape.letters e, a.rank < n) : ∀ t ∈ ts, t.rank < n :=
  fun _ ht => low _ (Shape.mem_letters h.word _ (List.mem_map_of_mem ht))

lemma Fits.rank_lt {e : RegularExpression Part} {ts : List Tree} {n : Nat} (h : Fits e ts)
    (low : ∀ a ∈ Shape.letters e, a.rank < n) : ∀ m ∈ nodesOf ts, m.rank < n :=
  rank_lt_of_mem_nodesOf h.nodes (h.rank_lt_of_mem low)

end Tree

end FeatureFile
