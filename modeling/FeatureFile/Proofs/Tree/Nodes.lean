import FeatureFile.Tree.Basic
import Mathlib.Tactic.Lemma

namespace FeatureFile.Tree

mutual

def nodes : Tree → List Tree
  | leaf _ => []
  | node rule anchor recovered children => node rule anchor recovered children :: nodesOf children

def nodesOf : List Tree → List Tree
  | [] => []
  | t :: rest => nodes t ++ nodesOf rest

end

@[simp] lemma nodes_leaf (t : Token) : (leaf t).nodes = [] := by
  rw [nodes]

@[simp] lemma nodes_node (rule : Rule) (anchor : Mark) (recovered : Bool) (children : List Tree) :
    (node rule anchor recovered children).nodes =
      node rule anchor recovered children :: nodesOf children := by
  rw [nodes]

@[simp] lemma nodesOf_nil : nodesOf [] = [] := by
  rw [nodesOf]

@[simp] lemma nodesOf_cons (t : Tree) (ts : List Tree) :
    nodesOf (t :: ts) = t.nodes ++ nodesOf ts := by
  rw [nodesOf]

@[simp] lemma nodesOf_append (ts us : List Tree) :
    nodesOf (ts ++ us) = nodesOf ts ++ nodesOf us := by
  induction ts with
  | nil => simp
  | cons t ts ih => simp [ih]

@[simp] lemma nodesOf_map_leaf (ts : List Token) : nodesOf (ts.map leaf) = [] := by
  induction ts with
  | nil => simp
  | cons t ts ih => simp [ih]

lemma nodesOf_flatMap {α : Type} (f : α → List Tree) (as : List α) :
    nodesOf (as.flatMap f) = as.flatMap fun a => nodesOf (f a) := by
  induction as with
  | nil => simp
  | cons a as ih => simp [ih]

lemma nodesOf_filter_isNode (ts : List Tree) : nodesOf (ts.filter isNode) = nodesOf ts := by
  induction ts with
  | nil => simp
  | cons t ts ih => cases t <;> simp [List.filter_cons, isNode, rule?, ih]

@[simp] lemma nodesOf_childNodes (t : Tree) : nodesOf t.childNodes = nodesOf t.children :=
  nodesOf_filter_isNode t.children

lemma isNode_of_mem_childNodes {t : Tree} : ∀ u ∈ t.childNodes, u.isNode :=
  fun _ hu => (List.mem_filter.mp hu).2

lemma nodes_of_isNode {t : Tree} (h : t.isNode) : t.nodes = t :: nodesOf t.children := by
  cases t with
  | leaf => cases h
  | node rule anchor recovered cs => rw [nodes_node, children]

lemma visit_eq_nodesOf (agenda : List Tree) (h : ∀ t ∈ agenda, t.isNode) :
    visit agenda = nodesOf agenda := by
  induction agenda using visit.induct with
  | case1 => rw [visit, nodesOf_nil]
  | case2 t agenda ih =>
    obtain ⟨first, rest⟩ := List.forall_mem_cons.mp h
    have below : ∀ u ∈ t.childNodes ++ agenda, u.isNode :=
      List.forall_mem_append.mpr ⟨isNode_of_mem_childNodes, rest⟩
    rw [visit, ih below, nodesOf_append, nodesOf_childNodes, nodesOf_cons, nodes_of_isNode first,
      List.cons_append]

theorem descendants_eq_nodesOf (t : Tree) : t.descendants = nodesOf t.children := by
  rw [descendants, visit_eq_nodesOf _ isNode_of_mem_childNodes, nodesOf_childNodes]

lemma nodes_eq_cons_descendants {t : Tree} (h : t.isNode) : t.nodes = t :: t.descendants := by
  rw [nodes_of_isNode h, descendants_eq_nodesOf]

lemma nodesOf_singleton {t : Tree} (h : t.isNode) : nodesOf [t] = t :: t.descendants := by
  rw [nodesOf_cons, nodesOf_nil, List.append_nil, nodes_eq_cons_descendants h]

lemma mem_nodesOf_singleton {t n : Tree} (h : t.isNode) (below : n ∈ t.descendants) :
    n ∈ nodesOf [t] := by
  rw [nodesOf_singleton h]
  exact List.mem_cons_of_mem _ below

@[simp] lemma hasError_leaf (t : Token) : (leaf t).hasError = false := by
  rw [hasError]

@[simp] lemma hasError_node (rule : Rule) (anchor : Mark) (recovered : Bool)
    (children : List Tree) :
    (node rule anchor recovered children).hasError = (recovered || anyError children) := by
  rw [hasError]

@[simp] lemma hasError_built (rule : Rule) (anchor : Mark) (children : List Tree) :
    (built rule anchor children).hasError = anyError children := by
  rw [built, hasError_node, Bool.false_or]

@[simp] lemma anyError_nil : anyError [] = false := by
  rw [anyError]

@[simp] lemma anyError_cons (t : Tree) (ts : List Tree) :
    anyError (t :: ts) = (t.hasError || anyError ts) := by
  rw [anyError]

@[simp] lemma anyError_append (ts us : List Tree) :
    anyError (ts ++ us) = (anyError ts || anyError us) := by
  induction ts with
  | nil => simp
  | cons t ts ih => simp [ih, Bool.or_assoc]

@[simp] lemma anyError_map_leaf (ts : List Token) : anyError (ts.map leaf) = false := by
  induction ts with
  | nil => simp
  | cons t ts ih => simp [ih]

lemma anyError_map {α : Type} (f : α → Tree) (as : List α) :
    anyError (as.map f) = as.any fun a => (f a).hasError := by
  induction as with
  | nil => simp
  | cons a as ih => simp [ih]

lemma anyError_flatMap {α : Type} (f : α → List Tree) (as : List α) :
    anyError (as.flatMap f) = as.any fun a => anyError (f a) := by
  induction as with
  | nil => simp
  | cons a as ih => simp [ih]

mutual

lemma hasError_eq_any : (t : Tree) → t.hasError = t.nodes.any recovered
  | leaf t => by simp
  | node rule anchor flag cs => by
    rw [hasError_node, nodes_node, List.any_cons, anyError_eq_any cs]
    rfl

lemma anyError_eq_any : (ts : List Tree) → anyError ts = (nodesOf ts).any recovered
  | [] => by simp
  | t :: ts => by
    rw [anyError_cons, nodesOf_cons, List.any_append, hasError_eq_any t, anyError_eq_any ts]

end

structure IsPlain (ts : List Tree) : Prop where
  error : anyError ts = false
  docStrings : ∀ n ∈ nodesOf ts, n.rule? ≠ some .docStrings

namespace IsPlain

variable {ts us : List Tree}

lemma leaves (tokens : List Token) : IsPlain (tokens.map leaf) :=
  ⟨by simp, by simp⟩

lemma append (h : IsPlain ts) (h' : IsPlain us) : IsPlain (ts ++ us) :=
  ⟨by simp [h.error, h'.error], by simpa [or_imp, forall_and] using ⟨h.docStrings, h'.docStrings⟩⟩

lemma built {rule : Rule} (other : rule ≠ .docStrings) (anchor : Mark) (h : IsPlain ts) :
    IsPlain [built rule anchor ts] := by
  refine ⟨by simp [h.error], ?_⟩
  simpa [Tree.built, rule?, other] using h.docStrings

lemma map {α : Type} {f : α → Tree} {as : List α} (h : ∀ a, IsPlain [f a]) :
    IsPlain (as.map f) := by
  induction as with
  | nil => exact leaves []
  | cons a as ih => exact (h a).append ih

end IsPlain

end FeatureFile.Tree
