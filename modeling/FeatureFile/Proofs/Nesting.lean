import FeatureFile.Proofs.Positions
import FeatureFile.Proofs.Tree.Nodes
import FeatureFile.Proofs.Tree.SectionBounds

namespace FeatureFile

def Text.IsBoundary (text : List Char) (offset : Nat) : Prop :=
  ∃ front back, text = front ++ back ∧ byteLength front = offset

lemma Rises.between {P : Nat → Prop} {a b m n : Nat} {xs : List Nat} (h : Rises P a xs b)
    (first : xs.head? = some m) (last : xs.getLast? = some n) : Rises P m xs n := by
  rw [← List.append_nil xs] at h
  obtain _ | ⟨-, holds, rest⟩ := (h.cut last).1
  · cases first
  · obtain rfl := Option.some.inj first
    exact .cons (Nat.le_refl _) holds rest

namespace Tree

mutual

lemma head?_bounds : (t : Tree) → t.bounds.head? = some t.start.offset
  | leaf t => rfl
  | node _ anchor _ [] => by rw [bounds_empty, start, List.head?_cons]
  | node _ _ _ (t :: ts) => by
    rw [bounds_node (by simp), boundsOf_cons, start, List.head?_append, head?_bounds t, Option.some_or]

end

mutual

lemma getLast?_bounds : (t : Tree) → t.bounds.getLast? = some t.stop.offset
  | leaf t => rfl
  | node _ anchor _ [] => by rw [bounds_empty, stop, stopOf, List.getLast?_singleton]
  | node _ anchor _ (t :: ts) => by
    rw [bounds_node (by simp), boundsOf_cons, stop, stopOf, List.getLast?_append, getLast?_bounds t,
      Option.or_some, getD_getLast?_boundsOf t.stop ts]

lemma getD_getLast?_boundsOf (anchor : Mark) :
    (ts : List Tree) → (boundsOf ts).getLast?.getD anchor.offset = (stopOf anchor ts).offset
  | [] => by rw [boundsOf_nil, stopOf, List.getLast?_nil, Option.getD_none]
  | t :: ts => by
    rw [boundsOf_cons, stopOf, List.getLast?_append, getLast?_bounds t, Option.or_some,
      Option.getD_some, getD_getLast?_boundsOf t.stop ts]

end

lemma start_mem_bounds (t : Tree) : t.start.offset ∈ t.bounds :=
  List.mem_of_head? t.head?_bounds

lemma stop_mem_bounds (t : Tree) : t.stop.offset ∈ t.bounds :=
  List.mem_of_getLast? t.getLast?_bounds

mutual

lemma bounds_sublist_of_mem_nodes {n : Tree} :
    (t : Tree) → n ∈ t.nodes → n.bounds.Sublist t.bounds
  | leaf t, h => by simp at h
  | node rule anchor recovered ts, h => by
    rw [nodes_node] at h
    rcases List.mem_cons.mp h with rfl | h
    · exact .refl _
    · have some : ts ≠ [] := by
        rintro rfl
        simp at h
      rw [bounds_node some]
      exact bounds_sublist_of_mem_nodesOf ts h

lemma bounds_sublist_of_mem_nodesOf {n : Tree} :
    (ts : List Tree) → n ∈ nodesOf ts → n.bounds.Sublist (boundsOf ts)
  | [], h => by simp at h
  | t :: ts, h => by
    rw [nodesOf_cons] at h
    rw [boundsOf_cons]
    rcases List.mem_append.mp h with h | h
    · exact (bounds_sublist_of_mem_nodes t h).trans (List.sublist_append_left _ _)
    · exact (bounds_sublist_of_mem_nodesOf ts h).trans (List.sublist_append_right _ _)

end

mutual

lemma isNode_of_mem_nodes {n : Tree} : (t : Tree) → n ∈ t.nodes → n.isNode
  | leaf t, h => by simp at h
  | node rule anchor recovered ts, h => by
    rw [nodes_node] at h
    rcases List.mem_cons.mp h with rfl | h
    · rfl
    · exact isNode_of_mem_nodesOf ts h

lemma isNode_of_mem_nodesOf {n : Tree} : (ts : List Tree) → n ∈ nodesOf ts → n.isNode
  | [], h => by simp at h
  | t :: ts, h => by
    rw [nodesOf_cons] at h
    rcases List.mem_append.mp h with h | h
    · exact isNode_of_mem_nodes t h
    · exact isNode_of_mem_nodesOf ts h

end

lemma bounds_sublist_of_mem_children {n c : Tree} (h : c ∈ n.children) :
    c.bounds.Sublist n.bounds := by
  cases n with
  | leaf t => cases h
  | node rule anchor recovered ts =>
    rw [children] at h
    rw [bounds_node (List.ne_nil_of_mem h), boundsOf_eq_flatMap, List.flatMap_def]
    exact List.sublist_flatten_of_mem (List.mem_map_of_mem h)

/-- A node goes from its first child to its last, and each child ends before the next one begins.
A node without children is empty. -/
structure Nests (n : Tree) : Prop where
  order : n.children.Pairwise fun c d => c.stop.offset ≤ d.start.offset
  first : ∀ c ∈ n.children.head?, n.start = c.start
  last : ∀ c ∈ n.children.getLast?, n.stop = c.stop
  inside : ∀ c ∈ n.children, n.start.offset ≤ c.start.offset ∧ c.start.offset ≤ c.stop.offset ∧
    c.stop.offset ≤ n.stop.offset
  empty : n.children = [] → n.stop = n.start

structure IsPlaced (text : List Char) (t : Tree) : Prop where
  mark : (if text.head? = some Text.byteOrderMark then 3 else 0) ≤ t.start.offset
  order : t.start.offset ≤ t.stop.offset
  within : t.stop.offset ≤ Text.byteLength text
  start : Text.IsBoundary text t.start.offset
  stop : Text.IsBoundary text t.stop.offset

variable {P : Nat → Prop} {a b : Nat} {n : Tree}

lemma rises_start_stop (h : Rises P a n.bounds b) : Rises P n.start.offset n.bounds n.stop.offset :=
  h.between n.head?_bounds n.getLast?_bounds

lemma nests_of_rises (inner : n.isNode) (h : Rises P a n.bounds b) : n.Nests := by
  obtain _ | ⟨rule, anchor, recovered, ts⟩ := n
  · cases inner
  refine ⟨?_, fun c head => ?_, fun c last => ?_, fun c mem => ?_, fun none => ?_⟩
  · by_cases none : ts = []
    · exact none ▸ .nil
    · have pairs := h.pairwise
      rw [bounds_node none, boundsOf_eq_flatMap, List.pairwise_flatMap] at pairs
      exact pairs.2.imp fun ends => ends _ (stop_mem_bounds _) _ (start_mem_bounds _)
  · obtain ⟨rest, rfl⟩ := List.head?_eq_some_iff.mp head
    rw [start]
  · rw [children, Option.mem_def] at last
    rw [stop, stopOf_eq_getD, last, Option.map_some, Option.getD_some]
  · have own := (rises_start_stop h).sublist (bounds_sublist_of_mem_children mem)
    exact ⟨(own.of_mem c.start_mem_bounds).1, (rises_start_stop own).le,
      (own.of_mem c.stop_mem_bounds).2.1⟩
  · rw [children] at none
    rw [none, start, stop, stopOf]

lemma isPlaced_of_rises {text : List Char}
    (h : Rises (Text.IsBoundary text) (Stream.origin text).offset n.bounds (Text.byteLength text)) :
    n.IsPlaced text := by
  obtain ⟨mark, -, start⟩ := h.of_mem n.start_mem_bounds
  obtain ⟨-, within, stop⟩ := h.of_mem n.stop_mem_bounds
  rw [Stream.offset_origin] at mark
  exact ⟨mark, (rises_start_stop h).le, within, start, stop⟩

end Tree

namespace Token

lemma rises_place {P : Nat → Prop} {m : Mark} {ls : List Lexeme}
    (marks : ∀ front back, ls = front ++ back → P (placeEnd m front).offset) :
    Rises P m.offset (boundsOf (place m ls)) (placeEnd m ls).offset := by
  induction ls generalizing m with
  | nil => exact .nil (Nat.le_refl _)
  | cons l ls ih =>
    have rest := ih fun front back whole => marks (l :: front) back (congrArg (l :: ·) whole)
    have next : m.offset ≤ (m.advance l.kind l.text).offset := by simp
    exact .cons (Nat.le_refl _) (marks [] _ rfl)
      (.cons next (marks [l] ls rfl) rest)

end Token

namespace Stream

lemma isBoundary_placeEnd {text : List Char} {front back : List Lexeme}
    (whole : Lexeme.ofText (Text.stripMark text) = front ++ back) :
    Text.IsBoundary text (Token.placeEnd (origin text) front).offset := by
  obtain ⟨mark, marked, length⟩ := Text.mark_append_stripMark text
  refine ⟨mark ++ front.flatMap Lexeme.text, back.flatMap Lexeme.text, ?_, ?_⟩
  · rw [List.append_assoc, ← List.flatMap_append, ← whole, Lexeme.flatMap_text_ofText, ← marked]
  · rw [Token.offset_placeEnd, offset_origin, Text.byteLength_append, length]

lemma rises_content (text : List Char) :
    Rises (Text.IsBoundary text) (origin text).offset (Token.boundsOf (ofText text).content)
      (Text.byteLength text) := by
  rw [← offset_stop_ofText, content_ofText, stop_eq]
  exact Token.rises_place fun _ _ => isBoundary_placeEnd

end Stream

namespace Parsed

variable {options : Options} {text : List Char}

lemma rises_root (options : Options) (text : List Char) :
    Rises (Text.IsBoundary text) (Stream.origin text).offset (parse options text).root.bounds
      (Text.byteLength text) := by
  have kept := Feature.keeps_items_ofStream (Stream.ofText text)
  rw [Feature.ofStream, Feature.items_ofLines] at kept
  have tokens := (Stream.rises_content text).sublist (Token.boundsOf_sublist kept.sublist)
  rw [Token.boundsOf_append] at tokens
  have stop := Stream.offset_stop_ofText text
  rw [← stop] at tokens ⊢
  refine Feature.rises_tree ?_ tokens
  change Text.IsBoundary text (Stream.ofText text).stop.offset
  rw [Stream.stop_eq]
  exact Stream.isBoundary_placeEnd (List.append_nil _).symm

/-- The spans of a tree nest: at each node, and for its tokens too. -/
theorem spans_nest (options : Options) (text : List Char) :
    let p := parse options text
    ∀ n ∈ p.root :: p.root.descendants,
      n.Nests ∧ n.IsPlaced text ∧ ∀ c ∈ n.children, c.IsPlaced text := by
  intro p n mem
  rw [← Tree.nodes_eq_cons_descendants rfl] at mem
  have own := (rises_root options text).sublist (Tree.bounds_sublist_of_mem_nodes _ mem)
  refine ⟨Tree.nests_of_rises (Tree.isNode_of_mem_nodes _ mem) own, Tree.isPlaced_of_rises own, ?_⟩
  exact fun c child => Tree.isPlaced_of_rises (own.sublist (Tree.bounds_sublist_of_mem_children child))

theorem spans_nest_empty :
    let text := "Feature: a\n".toList
    let p := parse ⟨true⟩ text
    ∃ n ∈ p.root.descendants, n.children.isEmpty ∧ n.Nests ∧ n.IsPlaced text := by
  have exists_empty : ∃ n ∈ (parse ⟨true⟩ "Feature: a\n".toList).root.descendants,
      n.children.isEmpty := by
    decide +kernel
  obtain ⟨n, mem, empty⟩ := exists_empty
  obtain ⟨nests, placed, -⟩ := spans_nest ⟨true⟩ _ n (List.mem_cons_of_mem _ mem)
  exact ⟨n, mem, empty, nests, placed⟩

end Parsed

end FeatureFile
