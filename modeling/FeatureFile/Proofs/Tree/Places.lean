import FeatureFile.Proofs.Tree.Nodes
import Mathlib.Data.List.Lex

namespace FeatureFile.Tree

def at? (t : Tree) : List Nat → Option Tree
  | [] => some t
  | i :: p => t.children[i]?.bind (·.at? p)

mutual

def places : Tree → List (List Nat)
  | leaf _ => []
  | node _ _ _ children => [] :: placesFrom 0 children

def placesFrom (i : Nat) : List Tree → List (List Nat)
  | [] => []
  | t :: rest => (places t).map (i :: ·) ++ placesFrom (i + 1) rest

end

@[simp] lemma places_leaf (t : Token) : (leaf t).places = [] := by
  rw [places]

@[simp] lemma places_node (rule : Rule) (anchor : Mark) (recovered : Bool) (children : List Tree) :
    (node rule anchor recovered children).places = [] :: placesFrom 0 children := by
  rw [places]

@[simp] lemma placesFrom_nil (i : Nat) : placesFrom i [] = [] := by
  rw [placesFrom]

@[simp] lemma placesFrom_cons (i : Nat) (t : Tree) (ts : List Tree) :
    placesFrom i (t :: ts) = t.places.map (i :: ·) ++ placesFrom (i + 1) ts := by
  rw [placesFrom]

lemma mem_placesFrom {p : List Nat} {ts : List Tree} {i : Nat} :
    p ∈ placesFrom i ts ↔ ∃ k q t, p = (i + k) :: q ∧ ts[k]? = some t ∧ q ∈ t.places := by
  induction ts generalizing i with
  | nil => simp
  | cons t ts ih =>
    rw [placesFrom_cons, List.mem_append, List.mem_map, ih]
    constructor
    · rintro (⟨q, hq, rfl⟩ | ⟨k, q, u, rfl, here, hq⟩)
      · exact ⟨0, q, t, rfl, rfl, hq⟩
      · exact ⟨k + 1, q, u, by rw [Nat.add_right_comm, Nat.add_assoc], here, hq⟩
    · rintro ⟨_ | k, q, u, rfl, here, hq⟩
      · obtain rfl := Option.some.inj here
        exact .inl ⟨q, hq, rfl⟩
      · exact .inr ⟨k, q, u, by rw [Nat.add_right_comm, Nat.add_assoc], here, hq⟩

lemma nil_notMem_placesFrom (i : Nat) (ts : List Tree) : [] ∉ placesFrom i ts := by
  intro h
  obtain ⟨k, q, t, different, -⟩ := mem_placesFrom.mp h
  cases different

lemma mem_places {p : List Nat} {t : Tree} : p ∈ t.places ↔ ∃ d, t.at? p = some d ∧ d.isNode := by
  induction p generalizing t with
  | nil =>
    cases t with
    | leaf => simp [at?, isNode, rule?]
    | node rule anchor recovered cs => simp [at?, isNode, rule?]
  | cons i p ih =>
    cases t with
    | leaf => simp [at?, children]
    | node rule anchor recovered cs =>
      simp only [places_node, List.mem_cons, mem_placesFrom, at?, children, Option.bind_eq_some_iff]
      constructor
      · rintro (different | ⟨k, q, u, same, here, hq⟩)
        · cases different
        · obtain ⟨rfl, rfl⟩ := List.cons.inj same
          obtain ⟨d, found, isNode⟩ := ih.mp hq
          exact ⟨d, ⟨u, by rwa [Nat.zero_add], found⟩, isNode⟩
      · rintro ⟨d, ⟨u, here, found⟩, isNode⟩
        exact .inr ⟨i, p, u, by rw [Nat.zero_add], here, ih.mpr ⟨d, found, isNode⟩⟩

mutual

lemma pairwise_places : (t : Tree) → t.places.Pairwise (· < ·)
  | leaf t => by simp
  | node rule anchor recovered cs => by
    rw [places_node]
    refine List.pairwise_cons.mpr ⟨fun p hp => ?_, pairwise_placesFrom 0 cs⟩
    obtain ⟨k, q, t, rfl, -⟩ := mem_placesFrom.mp hp
    exact List.nil_lt_cons _ _

lemma pairwise_placesFrom (i : Nat) : (ts : List Tree) → (placesFrom i ts).Pairwise (· < ·)
  | [] => by simp
  | t :: ts => by
    rw [placesFrom_cons]
    refine List.pairwise_append.mpr ⟨?_, pairwise_placesFrom (i + 1) ts, fun p hp q hq => ?_⟩
    · exact List.pairwise_map.mpr ((pairwise_places t).imp fun h => List.cons_lt_cons_self.mpr h)
    · obtain ⟨p, -, rfl⟩ := List.mem_map.mp hp
      obtain ⟨k, q, u, rfl, -⟩ := mem_placesFrom.mp hq
      apply List.cons_lt_cons_iff.mpr
      omega

end

mutual

lemma map_at?_places : (t : Tree) → t.places.map t.at? = t.nodes.map some
  | leaf t => by simp
  | node rule anchor recovered cs => by
    have below := map_at?_placesFrom (node rule anchor recovered cs) [] cs rfl
    rw [List.length_nil] at below
    rw [places_node, nodes_node, List.map_cons, List.map_cons, below, at?]

lemma map_at?_placesFrom (t : Tree) (front : List Tree) :
    (ts : List Tree) → t.children = front ++ ts →
      (placesFrom front.length ts).map t.at? = (nodesOf ts).map some
  | [], _ => by simp
  | u :: ts, cut => by
    have here : t.at? ∘ (front.length :: ·) = u.at? := by
      funext p
      rw [Function.comp_apply, at?, cut, List.getElem?_append_right (Nat.le_refl _), Nat.sub_self]
      rfl
    have behind := map_at?_placesFrom t (front ++ [u]) ts (by simpa using cut)
    rw [List.length_append, List.length_singleton] at behind
    rw [placesFrom_cons, nodesOf_cons, List.map_append, List.map_append, List.map_map, here,
      map_at?_places u, behind]

end

end FeatureFile.Tree
