import FeatureFile.Token.Basic
import FeatureFile.Tree.Rule

/-!
Syntax trees. A node keeps its children in the order of the text; tokens are the leaves. A node
without children lies at its anchor, any other one reaches from its first child to its last.
-/

namespace FeatureFile

inductive Tree where
  | leaf (token : Token)
  | node (rule : Rule) (anchor : Mark) (recovered : Bool) (children : List Tree)

namespace Tree

def built (rule : Rule) (anchor : Mark) (children : List Tree) : Tree :=
  node rule anchor false children

def rule? : Tree → Option Rule
  | leaf _ => none
  | node rule _ _ _ => some rule

def token? : Tree → Option Token
  | leaf t => some t
  | node _ _ _ _ => none

def children : Tree → List Tree
  | leaf _ => []
  | node _ _ _ children => children

/-- Whether something went wrong in the node itself. -/
def recovered : Tree → Bool
  | leaf _ => false
  | node _ _ recovered _ => recovered

def isNode (t : Tree) : Bool :=
  t.rule?.isSome

def childNodes (t : Tree) : List Tree :=
  t.children.filter isNode

def ownTokens (t : Tree) : List Token :=
  t.children.filterMap token?

def ofRule (rule : Rule) (t : Tree) : Bool :=
  t.rule? = some rule

def child? (t : Tree) (rule : Rule) : Option Tree :=
  t.children.find? (ofRule rule)

def childrenOf (t : Tree) (rule : Rule) : List Tree :=
  t.children.filter (ofRule rule)

def start : Tree → Mark
  | leaf t => t.start
  | node _ anchor _ [] => anchor
  | node _ _ _ (first :: _) => start first

mutual

def stop : Tree → Mark
  | leaf t => t.stop
  | node _ anchor _ children => stopOf anchor children

def stopOf (anchor : Mark) : List Tree → Mark
  | [] => anchor
  | t :: rest => stopOf (stop t) rest

end

theorem stopOf_eq_getD (anchor : Mark) (ts : List Tree) :
    stopOf anchor ts = (ts.getLast?.map stop).getD anchor := by
  induction ts generalizing anchor with
  | nil => rw [stopOf, List.getLast?_nil, Option.map_none, Option.getD_none]
  | cons t ts ih =>
    rw [stopOf, ih, List.getLast?_cons, Option.map_some, Option.getD_some]
    cases ts.getLast? <;> rfl

mutual

def leaves : Tree → List Token
  | leaf t => [t]
  | node _ _ _ children => leavesOf children

def leavesOf : List Tree → List Token
  | [] => []
  | t :: rest => leaves t ++ leavesOf rest

end

def text (t : Tree) : List Char :=
  t.leaves.flatMap (·.text)

mutual

/-- Whether something went wrong in the node or below. -/
def hasError : Tree → Bool
  | leaf _ => false
  | node _ _ recovered children => recovered || anyError children

def anyError : List Tree → Bool
  | [] => false
  | t :: rest => hasError t || anyError rest

end

mutual

def size : Tree → Nat
  | leaf _ => 1
  | node _ _ _ children => totalSize children + 1

def totalSize : List Tree → Nat
  | [] => 0
  | t :: rest => size t + totalSize rest

end

theorem totalSize_append (ts us : List Tree) :
    totalSize (ts ++ us) = totalSize ts + totalSize us := by
  induction ts with
  | nil => simp [totalSize]
  | cons t ts ih => simp [totalSize, ih, Nat.add_assoc]

theorem totalSize_filter_le (p : Tree → Bool) (ts : List Tree) :
    totalSize (ts.filter p) ≤ totalSize ts := by
  induction ts with
  | nil => simp
  | cons t ts ih => by_cases h : p t <;> simp [h, totalSize] <;> omega

theorem totalSize_childNodes_lt (t : Tree) : totalSize t.childNodes < t.size := by
  cases t with
  | leaf => simp [childNodes, children, totalSize, size]
  | node r a e cs =>
    have := totalSize_filter_le isNode cs
    simp only [childNodes, children, size]
    omega

def visit : List Tree → List Tree
  | [] => []
  | t :: agenda => t :: visit (t.childNodes ++ agenda)
termination_by agenda => totalSize agenda
decreasing_by
  have := totalSize_childNodes_lt t
  simp only [totalSize_append, totalSize]
  omega

def descendants (t : Tree) : List Tree :=
  visit t.childNodes

end Tree

end FeatureFile
