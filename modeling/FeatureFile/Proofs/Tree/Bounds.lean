import Mathlib.Data.List.Flatten
import FeatureFile.Proofs.Tree.Leaves

/-!
Trees in a row. The bounds of a tree are the offsets at which its tokens and its empty nodes begin
and end, in the order of the tree. If they never fall, then no two trees overlap at any depth.
-/

namespace FeatureFile

/-- Offsets with a property that go on from `a` to `b` and never fall. -/
inductive Rises (P : Nat → Prop) : Nat → List Nat → Nat → Prop
  | nil {a b : Nat} : a ≤ b → Rises P a [] b
  | cons {a n b : Nat} {ns : List Nat} : a ≤ n → P n → Rises P n ns b → Rises P a (n :: ns) b

namespace Rises

variable {P : Nat → Prop} {a b c n : Nat} {xs ys zs : List Nat}

lemma le (h : Rises P a xs b) : a ≤ b := by
  induction h with
  | nil here => exact here
  | cons first _ _ ih => exact Nat.le_trans first ih

lemma mono_left (h : Rises P b xs c) (below : a ≤ b) : Rises P a xs c := by
  cases h with
  | nil here => exact .nil (Nat.le_trans below here)
  | cons first holds rest => exact .cons (Nat.le_trans below first) holds rest

lemma append (h : Rises P a xs b) (h' : Rises P b ys c) : Rises P a (xs ++ ys) c := by
  induction h with
  | nil here => exact h'.mono_left here
  | cons first holds _ ih => exact .cons first holds (ih h')

lemma exists_of_append (h : Rises P a (xs ++ ys) c) : ∃ b, Rises P a xs b ∧ Rises P b ys c := by
  induction xs generalizing a with
  | nil => exact ⟨a, .nil (Nat.le_refl _), h⟩
  | cons x xs ih =>
    obtain _ | ⟨first, holds, rest⟩ := h
    obtain ⟨b, left, right⟩ := ih rest
    exact ⟨b, .cons first holds left, right⟩

lemma append_imp (h : Rises P a (xs ++ ys) c)
    (back : ∀ b, Rises P b ys c → Rises P b zs c) : Rises P a (xs ++ zs) c := by
  obtain ⟨b, left, right⟩ := h.exists_of_append
  exact left.append (back b right)

lemma imp_append (h : Rises P a (xs ++ zs) c)
    (front : ∀ b, Rises P a xs b → Rises P a ys b) : Rises P a (ys ++ zs) c := by
  obtain ⟨b, left, right⟩ := h.exists_of_append
  exact (front b left).append right

lemma sublist (h : Rises P a ys b) (sub : xs.Sublist ys) : Rises P a xs b := by
  induction h generalizing xs with
  | nil here =>
    obtain rfl := List.sublist_nil.mp sub
    exact .nil here
  | cons first holds _ ih =>
    cases sub with
    | cons _ sub => exact (ih sub).mono_left first
    | cons_cons _ sub => exact .cons first holds (ih sub)

lemma single (h : Rises P a xs b) (mem : n ∈ xs) : Rises P a [n] b :=
  h.sublist (List.singleton_sublist.mpr mem)

lemma of_mem (h : Rises P a xs b) (mem : n ∈ xs) : a ≤ n ∧ n ≤ b ∧ P n := by
  obtain _ | ⟨first, holds, last⟩ := h.single mem
  exact ⟨first, last.le, holds⟩

lemma pairwise (h : Rises P a xs b) : xs.Pairwise (· ≤ ·) := by
  induction h with
  | nil => exact .nil
  | cons _ _ rest ih => exact .cons (fun m hm => (rest.of_mem hm).1) ih

lemma cut (h : Rises P a (xs ++ ys) c) (last : xs.getLast? = some n) :
    Rises P a xs n ∧ Rises P n (n :: ys) c := by
  obtain ⟨front, rfl⟩ := List.getLast?_eq_some_iff.mp last
  rw [List.append_assoc] at h
  obtain ⟨b, left, right⟩ := h.exists_of_append
  obtain _ | ⟨first, holds, rest⟩ := right
  exact ⟨left.append (.cons first holds (.nil (Nat.le_refl _))), .cons (Nat.le_refl _) holds rest⟩

lemma double (h : Rises P a (n :: xs) b) : Rises P a (n :: n :: xs) b := by
  obtain _ | ⟨first, holds, rest⟩ := h
  exact .cons first holds (.cons (Nat.le_refl _) holds rest)

end Rises

namespace Token

def bounds (t : Token) : List Nat :=
  [t.start.offset, t.stop.offset]

def boundsOf (ts : List Token) : List Nat :=
  ts.flatMap bounds

@[simp] lemma boundsOf_nil : boundsOf [] = [] :=
  rfl

@[simp] lemma boundsOf_cons (t : Token) (ts : List Token) :
    boundsOf (t :: ts) = t.bounds ++ boundsOf ts :=
  rfl

@[simp] lemma boundsOf_append (ts us : List Token) :
    boundsOf (ts ++ us) = boundsOf ts ++ boundsOf us :=
  List.flatMap_append

lemma boundsOf_sublist {ts us : List Token} (h : ts.Sublist us) :
    (boundsOf ts).Sublist (boundsOf us) :=
  h.flatMap bounds

lemma getLast?_boundsOf (ts : List Token) :
    (boundsOf ts).getLast? = ts.getLast?.map (·.stop.offset) := by
  rcases List.eq_nil_or_concat ts with rfl | ⟨front, t, rfl⟩ <;> simp [bounds]

lemma stop_mem_boundsOf {t : Token} {ts : List Token} (h : t ∈ ts) :
    t.stop.offset ∈ boundsOf ts :=
  List.mem_flatMap.mpr ⟨t, h, by simp [bounds]⟩

lemma start_mem_boundsOf {t : Token} {ts : List Token} (h : t ∈ ts) :
    t.start.offset ∈ boundsOf ts :=
  List.mem_flatMap.mpr ⟨t, h, by simp [bounds]⟩

end Token

namespace Tree

mutual

/-- The anchor of a node counts only where the node is empty. -/
def bounds : Tree → List Nat
  | leaf t => t.bounds
  | node _ anchor _ children => if children.isEmpty then [anchor.offset] else boundsOf children

def boundsOf : List Tree → List Nat
  | [] => []
  | t :: rest => bounds t ++ boundsOf rest

end

@[simp] lemma bounds_leaf (t : Token) : (leaf t).bounds = t.bounds := by
  rw [bounds]

@[simp] lemma boundsOf_nil : boundsOf [] = [] := by
  rw [boundsOf]

@[simp] lemma boundsOf_cons (t : Tree) (ts : List Tree) :
    boundsOf (t :: ts) = t.bounds ++ boundsOf ts := by
  rw [boundsOf]

lemma boundsOf_eq_flatMap (ts : List Tree) : boundsOf ts = ts.flatMap bounds := by
  induction ts with
  | nil => simp
  | cons t ts ih => simp [ih]

@[simp] lemma boundsOf_append (ts us : List Tree) :
    boundsOf (ts ++ us) = boundsOf ts ++ boundsOf us := by
  simp [boundsOf_eq_flatMap]

lemma bounds_empty (rule : Rule) (anchor : Mark) (recovered : Bool) :
    (node rule anchor recovered []).bounds = [anchor.offset] := by
  rw [bounds, List.isEmpty_nil, if_pos rfl]

lemma bounds_node {rule : Rule} {anchor : Mark} {recovered : Bool} {ts : List Tree} (some : ts ≠ []) :
    (node rule anchor recovered ts).bounds = boundsOf ts := by
  rw [bounds, if_neg (by simpa using some)]

lemma rises_node {P : Nat → Prop} {a b : Nat} {rule : Rule} {anchor : Mark} {recovered : Bool}
    {ts : List Tree} (full : Rises P a (boundsOf ts) b) (empty : Rises P a [anchor.offset] b) :
    Rises P a (node rule anchor recovered ts).bounds b := by
  by_cases none : ts = []
  · rwa [none, bounds_empty]
  · rwa [bounds_node none]

def IsFilled (ts : List Tree) : Prop :=
  boundsOf ts = Token.boundsOf (leavesOf ts)

namespace IsFilled

variable {ts us : List Tree}

lemma leaves (tokens : List Token) : IsFilled (tokens.map leaf) := by
  rw [IsFilled, leavesOf_map_leaf]
  induction tokens with
  | nil => simp
  | cons t tokens ih => simp [ih]

lemma append (h : IsFilled ts) (h' : IsFilled us) : IsFilled (ts ++ us) := by
  rw [IsFilled] at h h' ⊢
  rw [boundsOf_append, leavesOf_append, Token.boundsOf_append, h, h']

lemma node {rule : Rule} {anchor : Mark} {recovered : Bool} (some : ts ≠ []) (h : IsFilled ts) :
    IsFilled [node rule anchor recovered ts] := by
  rw [IsFilled] at h ⊢
  rw [boundsOf_cons, leavesOf_cons, bounds_node some, h, leaves_node, boundsOf_nil, leavesOf_nil,
    List.append_nil, List.append_nil]

lemma map {α : Type} {f : α → Tree} {as : List α} (h : ∀ a ∈ as, IsFilled [f a]) :
    IsFilled (as.map f) := by
  induction as with
  | nil => exact leaves []
  | cons a as ih =>
    obtain ⟨first, rest⟩ := List.forall_mem_cons.mp h
    exact first.append (ih rest)

end IsFilled

end Tree

open FeatureFile.Tree (leaf node built boundsOf bounds_node rises_node leavesOf IsFilled)

variable {P : Nat → Prop} {a b : Nat}

namespace Line

lemma isFilled_nameChild (t : Token) : IsFilled [nameChild t] := by
  rw [nameChild]
  split
  · exact .node (by simp) (.leaves [t])
  · exact .leaves [t]

lemma stop_lastOf_mem (head : Token) (rest : List Token) :
    (lastOf head rest).stop.offset ∈ head.stop.offset :: Token.boundsOf rest := by
  rw [lastOf]
  cases last : rest.getLast? with
  | none => exact List.mem_cons_self
  | some t => exact List.mem_cons_of_mem _ (Token.stop_mem_boundsOf (List.mem_of_getLast? last))

lemma rises_nameTree {keyword : Token} {rest : List Token}
    (h : Rises P a (Token.boundsOf (keyword :: rest)) b) :
    Rises P a (boundsOf [leaf keyword, nameTree keyword rest]) b := by
  obtain ⟨front, back⟩ := h.cut (n := keyword.stop.offset) rfl
  rw [Tree.boundsOf_cons, Tree.boundsOf_cons, Tree.boundsOf_nil, List.append_nil, Tree.bounds_leaf]
  refine front.append (rises_node ?_ (back.single ?_))
  · have kept := (keeps_nameTree keyword rest).sublist
    rw [nameTree, Tree.leaves_built] at kept
    rw [show IsFilled _ from .map fun t _ => isFilled_nameChild t]
    exact back.sublist ((Token.boundsOf_sublist kept).cons _)
  · split
    case h_1 => exact stop_lastOf_mem keyword rest
    case h_2 t more shown =>
      have mem : t ∈ rest := (List.dropWhile_suffix _).subset (shown ▸ List.mem_cons_self)
      exact List.mem_cons_of_mem _ (Token.start_mem_boundsOf mem)

variable {l : Line}

lemma rises_headerTrees (h : Rises P a (Token.boundsOf (l.head :: l.tail)) b) :
    Rises P a (boundsOf l.headerTrees) b := by
  rw [headerTrees]
  split
  case h_1 none => exact rises_nameTree (none ▸ h)
  case h_2 c rest some =>
    split
    case isFalse => exact rises_nameTree h
    case isTrue =>
      rw [Tree.boundsOf_cons, Tree.bounds_leaf]
      rw [some, Token.boundsOf_cons] at h
      exact h.append_imp fun _ => rises_nameTree

end Line

namespace TagPart

lemma isFilled_tree (p : TagPart) : IsFilled [p.tree] := by
  cases p with
  | stray t => exact .leaves [t]
  | tag sign name =>
    cases name with
    | none => exact .node (by simp) (.leaves [sign])
    | some name => exact .node (by simp) (.leaves [sign, name])

end TagPart

namespace RowPart

lemma ne_nil_of_mem_split {ts group : List Token} (h : group ∈ (split ts).2) : group ≠ [] := by
  induction ts with
  | nil => cases h
  | cons t ts ih =>
    rw [split] at h
    split at h
    · rcases List.mem_cons.mp h with rfl | h
      · simp
      · exact ih h
    · exact ih h

lemma isFilled_cellChild (t : Token) : IsFilled [cellChild t] := by
  rw [cellChild]
  split
  · exact .node (by simp) (.leaves [t])
  · exact .leaves [t]

lemma isFilled_ofGroups (anchor : Mark) {groups : List (List Token)} (some : ∀ g ∈ groups, g ≠ []) :
    IsFilled ((ofGroups groups).map (tree anchor)) := by
  have cells {g : List Token} (nonempty : g ≠ []) : IsFilled [tree anchor (cell g)] :=
    .node (by simpa using nonempty) (.map fun t _ => isFilled_cellChild t)
  fun_induction ofGroups groups with
  | case1 => exact .leaves []
  | case2 last content => exact cells (some last List.mem_cons_self)
  | case3 last empty =>
    rw [List.map_map]
    exact .leaves last
  | case4 group rest _ ih =>
    obtain ⟨first, others⟩ := List.forall_mem_cons.mp some
    exact (cells first).append (ih others)

end RowPart

namespace Line

variable {l : Line} {ls : List Line}

lemma getLast?_boundsOf_tokens (l : Line) :
    (Token.boundsOf l.tokens).getLast? = some l.stop.offset := by
  rw [Token.getLast?_boundsOf, tokens, stop]
  cases l.ending with
  | some t => rw [Option.toList_some, List.getLast?_concat, Option.map_some]
  | none => simp [contentStop, lastOf, List.getLast?_cons]

lemma rises_tagTrees (h : Rises P a (Token.boundsOf (ls.flatMap tokens)) b) :
    Rises P a (boundsOf (tagTrees ls)) b := by
  cases ls with
  | nil => simpa [tagTrees] using h
  | cons l rest =>
    have filled : IsFilled (((l :: rest).flatMap tagParts).map TagPart.tree) :=
      .map fun p _ => p.isFilled_tree
    have told : (leavesOf (((l :: rest).flatMap tagParts).map TagPart.tree)).Sublist
        ((l :: rest).flatMap tokens) := by
      rw [List.map_flatMap, Tree.leavesOf_flatMap]
      refine .flatMap_right _ fun l _ => ?_
      have parts := TagPart.keeps_ofTokens false (l.head :: l.tail)
      rw [TagPart.untold_false] at parts
      exact parts.sublist.trans (List.sublist_append_left _ _)
    have start : l.start.offset ∈ Token.boundsOf ((l :: rest).flatMap tokens) :=
      Token.start_mem_boundsOf (t := l.head) (by simp [tokens])
    rw [tagTrees, Tree.boundsOf_cons, Tree.boundsOf_nil, List.append_nil]
    refine rises_node ?_ (h.single start)
    rw [filled]
    exact h.sublist (Token.boundsOf_sublist told)

lemma isFilled_rowTree (l : Line) : IsFilled [l.rowTree] := by
  refine .node ?_ ?_
  · intro none
    have leaves := l.leaves_rowTree
    rw [rowTree, none] at leaves
    simp at leaves
  · rw [rowParts, List.map_append, List.map_map]
    exact (IsFilled.leaves _).append (RowPart.isFilled_ofGroups _ fun _ => RowPart.ne_nil_of_mem_split)

lemma boundsOf_rowTrees_sublist (ls : List Line) :
    (boundsOf (ls.map rowTree)).Sublist (Token.boundsOf (ls.flatMap tokens)) := by
  rw [show IsFilled _ from .map fun l _ => isFilled_rowTree l, Tree.leavesOf_map]
  refine Token.boundsOf_sublist (.flatMap_right _ fun l _ => ?_)
  rw [leaves_rowTree]
  exact List.sublist_append_left _ _

lemma rises_tableTrees (h : Rises P a (Token.boundsOf (ls.flatMap tokens)) b) :
    Rises P a (boundsOf (tableTrees ls)) b := by
  cases ls with
  | nil => simpa [tableTrees] using h
  | cons l rest =>
    rw [List.flatMap_cons, Token.boundsOf_append] at h
    obtain ⟨front, back⟩ := h.cut l.getLast?_boundsOf_tokens
    have head : Rises P a (boundsOf [l.rowTree]) l.stop.offset :=
      front.sublist (by simpa using boundsOf_rowTrees_sublist [l])
    have rows : Rises P l.stop.offset (built .tableRows l.stop (rest.map rowTree)).bounds b :=
      rises_node (back.sublist ((boundsOf_rowTrees_sublist rest).cons _))
        (back.single List.mem_cons_self)
    simpa [tableTrees, built, bounds_node] using head.append rows

end Line

namespace Block

variable {block : Block}

lemma isFilled_closingTrees (block : Block) : IsFilled block.closingTrees := by
  rw [closingTrees]
  split
  · exact .leaves []
  · exact .leaves _

lemma rises_tree (h : Rises P a (Token.boundsOf block.tokens) b) :
    Rises P a block.tree.bounds b := by
  have whole : block.tokens =
      block.opening.tokens ++ (block.content ++ leavesOf block.closingTrees) := by
    cases closing : block.closing <;> simp [tokens, closingTrees, closing]
  rw [whole, Token.boundsOf_append] at h
  obtain ⟨front, back⟩ := h.cut block.opening.getLast?_boundsOf_tokens
  rw [Token.boundsOf_append, ← isFilled_closingTrees] at back
  have value : Rises P block.opening.stop.offset
      ((built .docStringsValue block.opening.stop (block.content.map leaf)).bounds ++
        boundsOf block.closingTrees) b := by
    rw [← List.cons_append] at back
    refine back.imp_append fun _ inner => rises_node ?_ (inner.single List.mem_cons_self)
    rw [show IsFilled _ from .leaves block.content, Tree.leavesOf_map_leaf]
    exact inner.sublist (List.sublist_cons_self _ _)
  have opening : boundsOf block.opening.tokenTrees = Token.boundsOf block.opening.tokens := by
    rw [Line.tokenTrees, show IsFilled _ from .leaves _, Tree.leavesOf_map_leaf]
  rw [tree, bounds_node (by simp), Tree.boundsOf_append, opening, Tree.boundsOf_cons]
  exact front.append value

end Block

end FeatureFile
