import FeatureFile.Document.Tree
import FeatureFile.Proofs.Shift.Sections

namespace FeatureFile

open FeatureFile.Tree (leaf node built)

namespace Tree

mutual

def shift (d : Shift) : Tree → Tree
  | leaf t => leaf (t.shift d)
  | node rule anchor recovered children =>
    node rule (anchor.shift d) recovered (shiftAll d children)

def shiftAll (d : Shift) : List Tree → List Tree
  | [] => []
  | t :: rest => shift d t :: shiftAll d rest

end

variable (d : Shift)

lemma shiftAll_eq_map (ts : List Tree) : shiftAll d ts = ts.map (shift d) := by
  induction ts with
  | nil => rfl
  | cons t ts ih => rw [shiftAll, ih, List.map_cons]

@[simp] lemma shift_leaf (t : Token) : (leaf t).shift d = leaf (t.shift d) :=
  rfl

@[simp] lemma shift_node (rule : Rule) (anchor : Mark) (recovered : Bool) (cs : List Tree) :
    (node rule anchor recovered cs).shift d =
      node rule (anchor.shift d) recovered (cs.map (shift d)) := by
  rw [shift, shiftAll_eq_map]

@[simp] lemma shift_built (rule : Rule) (anchor : Mark) (cs : List Tree) :
    (built rule anchor cs).shift d = built rule (anchor.shift d) (cs.map (shift d)) :=
  shift_node d rule anchor false cs

mutual

lemma shift_zero (t : Tree) : t.shift ⟨0, 0⟩ = t := by
  cases t with
  | leaf t => rfl
  | node rule anchor recovered cs => rw [shift, shiftAll_zero cs]; rfl

lemma shiftAll_zero (ts : List Tree) : shiftAll ⟨0, 0⟩ ts = ts := by
  cases ts with
  | nil => rfl
  | cons t ts => rw [shiftAll, shift_zero t, shiftAll_zero ts]

end

lemma map_leaf_shift (ts : List Token) :
    (ts.map (Token.shift d)).map leaf = (ts.map leaf).map (shift d) := by
  simp [Function.comp_def]

end Tree

variable (d : Shift)

lemma Text.dropEnd_shift (p : TokenKind → Bool) (ts : List Token) :
    Text.dropEnd (p ·.kind) (ts.map (Token.shift d)) =
      (Text.dropEnd (p ·.kind) ts).map (Token.shift d) := by
  induction ts with
  | nil => rfl
  | cons t ts ih =>
    rw [List.map_cons, Text.dropEnd, Text.dropEnd, ih]
    cases Text.dropEnd (p ·.kind) ts with
    | nil => by_cases h : p t.kind <;> simp [h]
    | cons => rfl

namespace Line

lemma nameChild_shift (t : Token) : nameChild (t.shift d) = (nameChild t).shift d := by
  rw [nameChild, nameChild, Token.kind_shift]
  split <;> simp [parameter]

lemma nameTree_shift (keyword : Token) (rest : List Token) :
    nameTree (keyword.shift d) (rest.map (Token.shift d)) = (nameTree keyword rest).shift d := by
  have uncommented (ts : List Token) : (ts.map (Token.shift d)).filter (·.kind ≠ .comment) =
      (ts.filter (·.kind ≠ .comment)).map (Token.shift d) := List.filter_map ..
  have children (ts : List Token) : (ts.map (Token.shift d)).map nameChild =
      (ts.map nameChild).map (Tree.shift d) := by
    simp [nameChild_shift]
  simp only [nameTree, Token.dropWhile_shift d TokenKind.isPad, uncommented,
    Text.dropEnd_shift d TokenKind.isPad, children, Tree.shift_built]
  cases rest.dropWhile (·.kind.isPad) with
  | nil => rw [lastOf_shift, List.map_nil, Token.stop_shift]
  | cons t ts => rfl

lemma headerTrees_shift (l : Line) : (l.shift d).headerTrees = l.headerTrees.map (Tree.shift d) := by
  obtain ⟨head, tail, ending⟩ := l
  cases tail with
  | nil => simp [headerTrees, shift, ← nameTree_shift]
  | cons c rest =>
    by_cases colon : c.kind = .colon <;> simp [headerTrees, shift, colon, ← nameTree_shift]

lemma tokenTrees_shift (l : Line) : (l.shift d).tokenTrees = l.tokenTrees.map (Tree.shift d) := by
  rw [tokenTrees, tokens_shift, Tree.map_leaf_shift, tokenTrees]

lemma flatMap_tokenTrees_shift (ls : List Line) :
    (ls.map (shift d)).flatMap tokenTrees = (ls.flatMap tokenTrees).map (Tree.shift d) := by
  simp [List.flatMap_map, List.map_flatMap, tokenTrees_shift]

end Line

namespace TagPart

def shift : TagPart → TagPart
  | tag sign name => tag (sign.shift d) (name.map (Token.shift d))
  | stray t => stray (t.shift d)

lemma ofTokens_shift (signed : Bool) (ts : List Token) :
    ofTokens signed (ts.map (Token.shift d)) = (ofTokens signed ts).map (shift d) := by
  induction ts generalizing signed with
  | nil => rfl
  | cons t ts ih =>
    have name : name? (ts.map (Token.shift d)) = (name? ts).map (Token.shift d) := by
      cases ts with
      | nil => rfl
      | cons u ts => by_cases text : u.kind = .text <;> simp [name?, Option.filter, text]
    by_cases sign : t.kind = .atSign
    · simp [ofTokens, sign, name, ih, shift]
    · by_cases skip : t.kind.isTrivia || (signed && t.kind = .text)
      · rw [List.map_cons, ofTokens, ofTokens, Token.kind_shift, if_neg sign, if_neg sign,
          if_pos skip, if_pos skip, ih]
      · rw [List.map_cons, ofTokens, ofTokens, Token.kind_shift, if_neg sign, if_neg sign,
          if_neg skip, if_neg skip, ih]
        rfl

lemma tree_shift (p : TagPart) : (p.shift d).tree = p.tree.shift d := by
  rcases p with ⟨sign, _ | name⟩ | t <;> simp [shift, tree]

lemma isStray_shift (p : TagPart) : (p.shift d).isStray = p.isStray := by
  cases p <;> rfl

end TagPart

namespace RowPart

def shift : RowPart → RowPart
  | cell tokens => cell (tokens.map (Token.shift d))
  | loose t => loose (t.shift d)

lemma split_shift (ts : List Token) :
    split (ts.map (Token.shift d)) =
      ((split ts).1.map (Token.shift d), (split ts).2.map (List.map (Token.shift d))) := by
  induction ts with
  | nil => rfl
  | cons t ts ih => by_cases bar : t.kind = .pipe <;> simp [split, bar, ih]

lemma ofGroups_shift (groups : List (List Token)) :
    ofGroups (groups.map (List.map (Token.shift d))) = (ofGroups groups).map (shift d) := by
  induction groups with
  | nil => rfl
  | cons group rest ih =>
    cases rest with
    | nil =>
      have any : (group.map (Token.shift d)).any (·.kind = .cell) = group.any (·.kind = .cell) :=
        List.any_map
      rw [List.map_singleton, ofGroups, ofGroups, any]
      split <;> simp [shift, Function.comp_def]
    | cons next rest => exact congrArg (cell (group.map (Token.shift d)) :: ·) ih

lemma tree_shift (anchor : Mark) (p : RowPart) :
    (p.shift d).tree (anchor.shift d) = (p.tree anchor).shift d := by
  have child (t : Token) : cellChild (t.shift d) = (cellChild t).shift d := by
    rw [cellChild, cellChild, Token.kind_shift]
    split <;> simp
  cases p <;> simp [shift, tree, child, Function.comp_def]

end RowPart

namespace Line

lemma tagParts_shift (l : Line) : (l.shift d).tagParts = l.tagParts.map (TagPart.shift d) :=
  TagPart.ofTokens_shift d false (l.head :: l.tail)

lemma tagTrees_shift (ls : List Line) :
    tagTrees (ls.map (shift d)) = (tagTrees ls).map (Tree.shift d) := by
  cases ls with
  | nil => rfl
  | cons l rest =>
    have parts : ((l :: rest).map (shift d)).flatMap tagParts =
        ((l :: rest).flatMap tagParts).map (TagPart.shift d) := by
      rw [List.flatMap_map, List.map_flatMap]
      exact List.flatMap_congr fun l _ => l.tagParts_shift d
    rw [List.map_cons, tagTrees, tagTrees, ← List.map_cons, parts]
    simp [Function.comp_def, TagPart.tree_shift, TagPart.isStray_shift]

lemma rowParts_shift (l : Line) : (l.shift d).rowParts = l.rowParts.map (RowPart.shift d) := by
  have split := RowPart.split_shift d (l.head :: l.tail)
  rw [List.map_cons] at split
  simp only [rowParts, shift, split, RowPart.ofGroups_shift]
  simp [RowPart.shift]

lemma rowTree_shift (l : Line) : (l.shift d).rowTree = l.rowTree.shift d := by
  simp [rowTree, rowParts_shift, RowPart.tree_shift, Function.comp_def]

lemma tableTrees_shift (ls : List Line) :
    tableTrees (ls.map (shift d)) = (tableTrees ls).map (Tree.shift d) := by
  cases ls with
  | nil => rfl
  | cons l rest => simp [tableTrees, rowTree_shift, Function.comp_def]

end Line

lemma Block.tree_shift (b : Block) : (b.shift d).tree = b.tree.shift d := by
  obtain ⟨opening, content, closing⟩ := b
  cases closing <;> simp [shift, tree, closingTrees, Line.tokenTrees_shift, Function.comp_def]

lemma sectionTree_shift {α : Type} (rule : Rule) (anchor : Mark) {member : α → Tree} {f : α → α}
    (inner : ∀ a, member (f a) = (member a).shift d) (entries : List (Entry α)) :
    sectionTree rule (anchor.shift d) member (entries.map (Entry.shift d f)) =
      (sectionTree rule anchor member entries).shift d := by
  have stray (e : Entry α) : (e.shift d f).isStray = e.isStray := by cases e <;> rfl
  have trees (e : Entry α) : (e.shift d f).trees member = (e.trees member).map (Tree.shift d) := by
    cases e with
    | placed a => simp [Entry.shift, Entry.trees, inner]
    | stray i => simp [Entry.shift, Entry.trees, Item.trees, Item.tokens_shift]
  simp [sectionTree, List.flatMap_map, List.map_flatMap, stray, trees, Function.comp_def]

lemma Step.tree_shift (s : Step) : (s.shift d).tree = s.tree.shift d := by
  obtain ⟨line, block, rows⟩ := s
  have name := Line.nameTree_shift d line.head line.tail
  have table := Line.tableTrees_shift d rows
  cases block <;> simp_all [shift, tree, Line.shift, Line.start, Block.tree_shift]

lemma Steps.tree_shift (s : Steps) : (s.shift d).tree = s.tree.shift d :=
  sectionTree_shift d .steps s.anchor (Step.tree_shift d) s.entries

namespace Heading

lemma head_shift (h : Heading) : (h.shift d).head = h.head.shift d := by
  obtain ⟨tags, header, description⟩ := h
  cases tags <;> rfl

lemma trees_shift (h : Heading) : (h.shift d).trees = h.trees.map (Tree.shift d) := by
  have description : (h.shift d).descriptionTree = h.descriptionTree.shift d := by
    simp [shift, descriptionTree, Line.flatMap_tokenTrees_shift]
  rw [trees, trees, description]
  simp [shift, Line.tagTrees_shift, Line.headerTrees_shift]

end Heading

lemma Examples.tree_shift (e : Examples) : (e.shift d).tree = e.tree.shift d := by
  have heading := Heading.trees_shift d e.heading
  have head := Heading.head_shift d e.heading
  simp [shift, tree, heading, head, Line.tableTrees_shift]

lemma Scenario.tree_shift (s : Scenario) : (s.shift d).tree = s.tree.shift d := by
  have heading := Heading.trees_shift d s.heading
  have head := Heading.head_shift d s.heading
  have rule : (s.shift d).rule = s.rule := rfl
  have faulty : (s.shift d).isFaulty = s.isFaulty := by
    have outline : (s.shift d).isOutline = s.isOutline := rfl
    have none : (s.shift d).examples.isEmpty = s.examples.isEmpty := List.isEmpty_map ..
    rw [isFaulty, isFaulty, outline, none]
  rw [tree, tree, rule, faulty]
  simp [shift, heading, head, Steps.tree_shift, Examples.tree_shift, Function.comp_def]

end FeatureFile
