import FeatureFile.Proofs.FreeText.Trim
import FeatureFile.Proofs.Tree.Titles

namespace FeatureFile

open FeatureFile.Tree (leaf node built)
open Text (dropEnd trim isPad)

namespace Text

variable {α : Type} {p q : α → Bool}

lemma filter_dropEnd (apart : ∀ a, q a → p a = false) (as : List α) :
    (dropEnd p as).filter q = as.filter q := by
  obtain ⟨gone, whole, all⟩ := dropEnd_append p as
  have none : gone.filter q = [] := by
    refine List.filter_eq_nil_iff.mpr fun a ha kept => ?_
    have dropped := all a ha
    simp [apart a kept] at dropped
  conv_rhs => rw [← whole, List.filter_append, none, List.append_nil]

lemma filter_dropWhile (apart : ∀ a, q a → p a = false) (as : List α) :
    (as.dropWhile p).filter q = as.filter q := by
  have none : (as.takeWhile p).filter q = [] := by
    refine List.filter_eq_nil_iff.mpr fun a ha kept => ?_
    have dropped := List.mem_takeWhile_imp ha
    simp [apart a kept] at dropped
  conv_rhs => rw [← List.takeWhile_append_dropWhile (p := p) (l := as), List.filter_append, none,
    List.nil_append]

end Text

namespace Line

variable {keyword : Token} {rest : List Token} {text : List Char}

lemma text_nameTree (keyword : Token) (free : Token.IsFreeText rest text) :
    (nameTree keyword rest).text = trim isPad text := by
  have plain : ∀ t ∈ rest.dropWhile (·.kind.isPad), decide (t.kind ≠ .comment) := by
    intro t ht
    have kind := free.free t ((List.dropWhile_sublist _).subset ht)
    refine decide_eq_true fun comment => ?_
    rw [comment] at kind
    cases kind
  rw [Tree.text, nameTree, Tree.leaves_built, List.filter_eq_self.mpr plain, Tree.leavesOf_map]
  simp only [leaves_nameChild, List.flatMap_singleton']
  rw [Token.flatMap_trim free.pieces, free.text]

lemma text_nameTree_comment (keyword : Token) {t : Token} (comment : t.kind = .comment) :
    (nameTree keyword [t]).text = [] := by
  have word : t.kind.isPad = false := by
    rw [comment]
    rfl
  rw [Tree.text, nameTree, List.dropWhile_cons_of_neg (by simp [word])]
  simp [comment, dropEnd]

lemma parameters_nameTree {v : View .name} (same : v.tree = nameTree keyword rest) :
    v.parameters.map View.literal? = (rest.filter (·.kind.isLiteral)).map some := by
  have each (ts : List Token) : ((ts.map nameChild).filterMap (View.cast? .parameter)).map View.literal? =
      (ts.filter (·.kind.isLiteral)).map some := by
    induction ts with
    | nil => rfl
    | cons t ts ih =>
      rw [List.map_cons, nameChild, List.filter_cons]
      split
      case isTrue literal =>
        rw [List.map_cons, ← ih]
        rfl
      case isFalse other => exact ih
  have word (t : Token) (literal : t.kind.isLiteral) : t.kind.isPad = false ∧ t.kind ≠ .comment := by
    cases kind : t.kind <;> simp_all [TokenKind.isLiteral, TokenKind.isPad]
  rw [View.parameters, View.childrenOf, same, nameTree, built, Tree.children.eq_2, each,
    Text.filter_dropEnd fun t literal => (word t literal).1, List.filter_filter,
    ← Text.filter_dropWhile (fun t literal => (word t literal).1) rest]
  refine congrArg (List.map some) (List.filter_congr fun t _ => ?_)
  cases literal : t.kind.isLiteral with
  | false => rfl
  | true => simp [(word t literal).2]

end Line

lemma Heading.text_descriptionTree (h : Heading) :
    h.descriptionTree.text = (h.description.flatMap Line.tokens).flatMap Token.text := by
  simp only [Tree.text, descriptionTree, Tree.leaves_built, Tree.leavesOf_flatMap, Line.tokenTrees,
    Tree.leavesOf_map_leaf]

namespace View

variable {rule wanted : Rule} {n : Tree}

lemma exists_child? (v : View rule) (found : v.tree.children.find? (Tree.ofRule wanted) = some n) :
    ∃ w : View wanted, v.child? wanted = some w ∧ w.tree = n := by
  have ofRule := List.find?_some found
  refine ⟨⟨n, ofRule⟩, ?_, rfl⟩
  rw [child?, Tree.child?, found]
  exact dif_pos ofRule

lemma name_of_find? (v : View rule) (found : v.tree.children.find? (Tree.ofRule .name) = some n) :
    v.name.tree = n := by
  obtain ⟨w, child, rfl⟩ := v.exists_child? found
  rw [name, child]
  rfl

lemma description_of_find? (v : View rule)
    (found : v.tree.children.find? (Tree.ofRule .description) = some n) : v.description.tree = n := by
  obtain ⟨w, child, rfl⟩ := v.exists_child? found
  rw [description, child]
  rfl

end View

namespace Title

variable {rule wanted : Rule} {v : View rule} {h : Heading} {s : Step}

lemma find?_headed (front : List Token) (h : Heading) (below : List Tree) (untagged : wanted ≠ .tags) :
    (front.map leaf ++ (h.trees ++ below)).find? (Tree.ofRule wanted) =
      (h.header.headerTrees ++ h.descriptionTree :: below).find? (Tree.ofRule wanted) := by
  have leaves : (front.map leaf).find? (Tree.ofRule wanted) = none := by
    simp [Tree.ofRule, Tree.rule?]
  have tags : (Line.tagTrees h.tags).find? (Tree.ofRule wanted) = none := by
    cases h.tags with
    | nil => rfl
    | cons l ls => simpa [Line.tagTrees, Tree.ofRule, Tree.rule?] using untagged.symm
  rw [Heading.trees, List.find?_append, leaves, Option.none_or, List.append_assoc, List.append_assoc,
    List.find?_append, tags, Option.none_or]
  rfl

lemma headerTrees_of_colon {l : Line} {colon : Token} {rest : List Token} (tail : l.tail = colon :: rest)
    (kind : colon.kind = .colon) :
    l.headerTrees = [leaf l.head, leaf colon, Line.nameTree colon rest] := by
  rw [Line.headerTrees, tail]
  exact if_pos kind

lemma tree_name_of_heads (heads : (heading h).Heads v.tree) {colon : Token} {rest : List Token}
    (tail : h.header.tail = colon :: rest) (kind : colon.kind = .colon) :
    v.name.tree = Line.nameTree colon rest := by
  obtain ⟨-, front, below, -, -, children, -⟩ := heads
  refine v.name_of_find? ?_
  rw [children, find?_headed front h below (by decide), headerTrees_of_colon tail kind]
  rfl

lemma tree_description_of_heads (heads : (heading h).Heads v.tree) {colon : Token} {rest : List Token}
    (tail : h.header.tail = colon :: rest) (kind : colon.kind = .colon) :
    v.description.tree = h.descriptionTree := by
  obtain ⟨-, front, below, -, -, children, -⟩ := heads
  refine v.description_of_find? ?_
  rw [children, find?_headed front h below (by decide), headerTrees_of_colon tail kind]
  rfl

lemma tree_name_of_step (heads : (step s).Heads v.tree) :
    v.name.tree = Line.nameTree s.line.head s.line.tail := by
  refine v.name_of_find? ?_
  rw [heads.2]
  rfl

end Title

namespace View

variable {rule : Rule}

def titleToken? (v : View rule) : Option Token :=
  v.tree.ownTokens.find? (rule.isTitledBy ·.kind)

end View

namespace Title

variable {rule : Rule} {v : View rule}

def line : Title → Line
  | heading h => h.header
  | step s => s.line

lemma titleToken?_of_heads {a : Title} (heads : a.Heads v.tree) :
    v.titleToken? = some a.line.head := by
  cases a with
  | heading h =>
    obtain ⟨rule', front, below, ofRule, kind, children, other⟩ := heads
    obtain rfl : rule = rule' := Option.some.inj (v.rule?_tree.symm.trans ofRule)
    have titled : rule.isTitledBy = rule.isHeadedBy := by
      cases rule <;> first | rfl | cases kind
    obtain ⟨rest, tokens⟩ := h.filterMap_token?_trees below
    have own : (front.map leaf).filterMap Tree.token? = front := by
      rw [List.filterMap_map]
      exact List.filterMap_some
    have skipped : front.find? (rule.isHeadedBy ·.kind) = none :=
      List.find?_eq_none.mpr fun t ht => by simp [other t ht]
    rw [View.titleToken?, Tree.ownTokens, children, List.filterMap_append, own, tokens, titled,
      List.find?_append, skipped, Option.none_or]
    exact List.find?_cons_of_pos kind
  | step s =>
    obtain ⟨kind, tree⟩ := heads
    have ofRule : rule = .step := by
      have here := v.rule?_tree
      rw [tree] at here
      exact (Option.some.inj here).symm
    subst ofRule
    rw [View.titleToken?, tree]
    exact List.find?_cons_of_pos kind

end Title

end FeatureFile
