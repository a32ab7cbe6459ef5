import FeatureFile.Proofs.Tree.Nodes

namespace FeatureFile

open FeatureFile.Tree (leaf node anyError)

structure Finished where
  tree : Tree
  start : Mark
  stop : Mark
  erroneous : Bool

inductive Element where
  | token (t : Token)
  | node (n : Finished)

namespace Element

def tree : Element → Tree
  | token t => leaf t
  | node n => n.tree

def start : Element → Mark
  | token t => t.start
  | node n => n.start

def stop : Element → Mark
  | token t => t.stop
  | node n => n.stop

def node? : Element → Option Finished
  | token _ => none
  | node n => some n

end Element

structure Builder where
  rule : Rule
  anchor : Mark
  recovered : Bool
  children : List Element

namespace Builder

def opened (rule : Rule) (anchor : Mark) : Builder :=
  ⟨rule, anchor, false, []⟩

def add (b : Builder) (e : Element) : Builder :=
  { b with children := b.children ++ [e] }

def markRecovered (b : Builder) : Builder :=
  { b with recovered := true }

def finish (b : Builder) : Finished where
  tree := node b.rule b.anchor b.recovered (b.children.map Element.tree)
  start := (b.children.head?.map Element.start).getD b.anchor
  stop := (b.children.getLast?.map Element.stop).getD b.anchor
  erroneous := b.recovered || (b.children.filterMap Element.node?).any Finished.erroneous

end Builder

inductive Assembly where
  | opened (rule : Rule) (anchor : Mark)
  | token (before : Assembly) (t : Token)
  | child (before inner : Assembly)
  | marked (before : Assembly)

def Assembly.builder : Assembly → Builder
  | opened rule anchor => .opened rule anchor
  | token before t => before.builder.add (.token t)
  | child before inner => before.builder.add (.node inner.builder.finish)
  | marked before => before.builder.markRecovered

def Assembly.finished (a : Assembly) : Finished :=
  a.builder.finish

structure Finished.IsTrue (n : Finished) : Prop where
  start : n.start = n.tree.start
  stop : n.stop = n.tree.stop
  erroneous : n.erroneous = n.tree.hasError

namespace Element

def IsTrue : Element → Prop
  | token _ => True
  | node n => n.IsTrue

variable {e : Element}

lemma IsTrue.start (h : e.IsTrue) : e.start = e.tree.start := by
  cases e with
  | token t => rfl
  | node n => exact Finished.IsTrue.start h

lemma IsTrue.stop (h : e.IsTrue) : e.stop = e.tree.stop := by
  cases e with
  | token t => rfl
  | node n => exact Finished.IsTrue.stop h

lemma any_erroneous {es : List Element} (h : ∀ e ∈ es, e.IsTrue) :
    (es.filterMap node?).any Finished.erroneous = anyError (es.map tree) := by
  induction es with
  | nil => simp
  | cons e es ih =>
    obtain ⟨first, rest⟩ := List.forall_mem_cons.mp h
    cases e with
    | token t => simpa [node?, tree] using ih rest
    | node n => simp [node?, tree, Finished.IsTrue.erroneous first, ← ih rest]

end Element

namespace Builder

def IsTrue (b : Builder) : Prop :=
  ∀ e ∈ b.children, e.IsTrue

variable {b : Builder} {e : Element}

lemma IsTrue.add (h : b.IsTrue) (he : e.IsTrue) : (b.add e).IsTrue :=
  List.forall_mem_append.mpr ⟨h, List.forall_mem_singleton.mpr he⟩

lemma IsTrue.finish (h : b.IsTrue) : b.finish.IsTrue := by
  refine ⟨?_, ?_, ?_⟩
  · rw [Builder.finish]
    cases cut : b.children with
    | nil => rw [List.map_nil, Tree.start]; rfl
    | cons e es =>
      have first : e.IsTrue := h e (by rw [cut]; exact List.mem_cons_self)
      rw [List.map_cons, Tree.start, ← first.start]
      rfl
  · rw [Builder.finish, Tree.stop, Tree.stopOf_eq_getD, List.getLast?_map, Option.map_map]
    cases last : b.children.getLast? with
    | none => rfl
    | some e => exact (h e (List.mem_of_getLast? last)).stop
  · rw [Builder.finish, Tree.hasError_node, Element.any_erroneous h]

lemma tree_add {rule : Rule} {anchor : Mark} {flag : Bool} {ts : List Tree}
    (h : b.finish.tree = node rule anchor flag ts) (e : Element) :
    (b.add e).finish.tree = node rule anchor flag (ts ++ [e.tree]) := by
  obtain ⟨rfl, rfl, rfl, rfl⟩ := Tree.node.inj h
  exact congrArg _ List.map_append

end Builder

namespace Assembly

lemma isTrue_builder (a : Assembly) : a.builder.IsTrue := by
  induction a with
  | opened => exact List.forall_mem_nil _
  | token before t ih => exact ih.add trivial
  | child before inner ih ih' => exact ih.add ih'.finish
  | marked before ih => exact ih

theorem isTrue_finished (a : Assembly) : a.finished.IsTrue :=
  a.isTrue_builder.finish

mutual

theorem exists_tree : (t : Tree) → t.isNode → ∃ a : Assembly, a.finished.tree = t
  | leaf _, h => nomatch h
  | node rule anchor false ts, _ => exists_behind ts ⟨opened rule anchor, rfl⟩
  | node rule anchor true ts, _ => exists_behind ts ⟨marked (opened rule anchor), rfl⟩

theorem exists_behind {rule : Rule} {anchor : Mark} {flag : Bool} {front : List Tree} :
    (ts : List Tree) → (∃ a : Assembly, a.finished.tree = node rule anchor flag front) →
      ∃ a : Assembly, a.finished.tree = node rule anchor flag (front ++ ts)
  | [], h => by rwa [List.append_nil]
  | leaf t :: ts, ⟨a, h⟩ => by
    rw [List.append_cons]
    exact exists_behind ts ⟨a.token t, Builder.tree_add h (.token t)⟩
  | node rule' anchor' flag' us :: ts, ⟨a, h⟩ => by
    obtain ⟨inner, same⟩ := exists_tree (node rule' anchor' flag' us) rfl
    rw [List.append_cons, ← same]
    exact exists_behind ts ⟨a.child inner, Builder.tree_add h (.node inner.finished)⟩

end

end Assembly

end FeatureFile
