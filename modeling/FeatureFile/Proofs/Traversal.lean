import FeatureFile.Proofs.Tree.Assembly
import FeatureFile.Proofs.Tree.Places

namespace FeatureFile

open FeatureFile.Tree (nodesOf totalSize)

namespace Tree

lemma totalSize_reverse (ts : List Tree) : totalSize ts.reverse = totalSize ts := by
  induction ts with
  | nil => rfl
  | cons t ts ih =>
    rw [List.reverse_cons, totalSize_append, ih]
    simp only [totalSize]
    omega

end Tree

/-- The nodes found so far, and those to go on from, with the next one at the end. -/
structure Walk where
  found : List Tree
  stack : List Tree

namespace Walk

def below (t : Tree) : Walk :=
  ⟨[], t.childNodes.reverse⟩

def next? (w : Walk) : Option Walk :=
  w.stack.getLast?.map fun t => ⟨w.found ++ [t], w.stack.dropLast ++ t.childNodes.reverse⟩

variable {w v : Walk}

lemma next?_eq_some (h : w.next? = some v) :
    ∃ front t, w.stack = front ++ [t] ∧ v = ⟨w.found ++ [t], front ++ t.childNodes.reverse⟩ := by
  obtain ⟨t, last, rfl⟩ := Option.map_eq_some_iff.mp h
  obtain ⟨front, cut⟩ := List.getLast?_eq_some_iff.mp last
  exact ⟨front, t, cut, by rw [cut, List.dropLast_concat]⟩

lemma totalSize_next_lt (h : w.next? = some v) : totalSize v.stack < totalSize w.stack := by
  obtain ⟨front, t, cut, rfl⟩ := next?_eq_some h
  have smaller := t.totalSize_childNodes_lt
  rw [cut, Tree.totalSize_append, Tree.totalSize_append, Tree.totalSize_reverse]
  simp only [totalSize]
  omega

def run (w : Walk) : List Tree :=
  match _goes : w.next? with
  | none => w.found
  | some v => v.run
termination_by totalSize w.stack
decreasing_by exact totalSize_next_lt _goes

lemma run_of_stops (stops : w.next? = none) : w.run = w.found := by
  rw [run, stops]

lemma run_of_goes (goes : w.next? = some v) : w.run = v.run := by
  rw [run, goes]

def outcome (w : Walk) : List Tree :=
  w.found ++ nodesOf w.stack.reverse

lemma outcome_next (nodes : ∀ t ∈ w.stack, t.isNode) (h : w.next? = some v) :
    v.outcome = w.outcome ∧ ∀ t ∈ v.stack, t.isNode := by
  obtain ⟨front, t, cut, rfl⟩ := next?_eq_some h
  rw [cut, List.forall_mem_append] at nodes
  have here := Tree.nodes_of_isNode (nodes.2 t List.mem_cons_self)
  refine ⟨?_, List.forall_mem_append.mpr ⟨nodes.1, fun u hu => ?_⟩⟩
  · -- children lie on the stack in reverse, on top of all that was there
    simp [outcome, cut, here]
  · exact Tree.isNode_of_mem_childNodes u (List.mem_reverse.mp hu)

lemma run_eq_outcome (w : Walk) (nodes : ∀ t ∈ w.stack, t.isNode) : w.run = w.outcome := by
  induction w using run.induct with
  | case1 w stops =>
    have empty : w.stack = [] := by
      simpa [next?] using stops
    rw [run_of_stops stops, outcome, empty, List.reverse_nil, Tree.nodesOf_nil, List.append_nil]
  | case2 w v goes ih =>
    obtain ⟨same, onward⟩ := outcome_next nodes goes
    rw [run_of_goes goes, ih onward, same]

lemma run_below (t : Tree) : (below t).run = nodesOf t.children := by
  rw [run_eq_outcome, outcome, below, List.reverse_reverse, Tree.nodesOf_childNodes,
    List.nil_append]
  exact fun u hu => Tree.isNode_of_mem_childNodes u (List.mem_reverse.mp hu)

end Walk

namespace Assembly

/-- Below a node that was put together in any way, a walk finds the nodes in pre-order: by their
places, with each place once. The error that is noted of it is there if and only if something went wrong
in it or in a node that is found. -/
theorem walk_preorder (a : Assembly) :
    let t := a.finished.tree
    t.descendants = (Walk.below t).run ∧ t.descendants = nodesOf t.children ∧
      (∃ places : List (List Nat), places.Pairwise (· < ·) ∧
        (∀ p, p ∈ places ↔ p ≠ [] ∧ ∃ d, t.at? p = some d ∧ d.isNode) ∧
        places.map t.at? = t.descendants.map some) ∧
      a.finished.erroneous = t.hasError ∧
      (t.hasError ↔ t.recovered ∨ ∃ d ∈ t.descendants, d.recovered) := by
  intro t
  have recursive : t.descendants = nodesOf t.children := t.descendants_eq_nodesOf
  have places : t.places = [] :: Tree.placesFrom 0 t.children := Tree.places_node _ _ _ _
  have nodes : t.nodes = t :: t.descendants := by
    rw [recursive, Tree.nodes_of_isNode rfl]
  refine ⟨?_, recursive, ⟨Tree.placesFrom 0 t.children, ?_, fun p => ?_, ?_⟩,
    a.isTrue_finished.erroneous, ?_⟩
  · rw [Walk.run_below, recursive]
  · exact Tree.pairwise_placesFrom 0 t.children
  · rw [← Tree.mem_places, places, List.mem_cons]
    constructor
    · intro hp
      refine ⟨?_, .inr hp⟩
      rintro rfl
      exact Tree.nil_notMem_placesFrom _ _ hp
    · rintro ⟨inner, rfl | hp⟩
      · exact absurd rfl inner
      · exact hp
  · have all := t.map_at?_places
    rw [places, nodes, List.map_cons, List.map_cons] at all
    exact (List.cons.inj all).2
  · rw [Tree.hasError_eq_any, nodes]
    simp

end Assembly

end FeatureFile
