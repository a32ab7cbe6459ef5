import Mathlib.Data.List.Perm.Basic
import FeatureFile.Proofs.Tree.Errors
import FeatureFile.Proofs.Tree.Sites

namespace FeatureFile

open FeatureFile.Tree (leaf node built nodesOf anyError Fits)
open Remark (told)

namespace Remark

def isNeutral : Remark → Bool
  | fault d => !d.fault.isOwn && !d.fault.isMissingFeature && match d.fault with
    | .unexpected _ _ => false
    | _ => true
  | openBlock => true

lemma told_eq_nil {f : Fault} (own : f.isOwn) {rs : List Remark} (h : ∀ r ∈ rs, r.isNeutral) :
    told f rs = [] := by
  rw [told, List.filter_eq_nil_iff]
  intro d hd same
  obtain ⟨r, hr, found⟩ := List.mem_filterMap.mp hd
  cases r with
  | openBlock => cases found
  | fault d' =>
    obtain rfl := Option.some.inj found
    have neutral := h _ hr
    rw [isNeutral, of_decide_eq_true same, own] at neutral
    cases neutral

end Remark

namespace Sites

variable {ts : List Tree} {rs : List Remark}

lemma neutral (h : Sites ts []) (neutral : ∀ r ∈ rs, r.isNeutral) : Sites ts rs where
  flagged := h.flagged
  own f hf := by
    rw [Remark.told_eq_nil hf neutral]
    exact h.own f hf
  found d found context hd fault := by
    have here := neutral _ hd
    simp [Remark.isNeutral, fault] at here
  taken n hn r rule stray recovered := by
    obtain ⟨t, -, ht⟩ := h.taken n hn r rule stray recovered
    cases ht
  headed d hd := by
    have here := neutral _ hd
    simp only [Remark.isNeutral, Bool.and_eq_true, Bool.not_eq_true'] at here
    exact here.1.2

lemma leaves (tokens : List Token) : Sites (tokens.map leaf) [] :=
  ⟨by simp, by simp, by simp, by simp, by simp⟩

end Sites

namespace Shape

lemma mem_letters_sum {es : List (RegularExpression Part)} {a : Part} (h : a ∈ letters es.sum) :
    ∃ e ∈ es, a ∈ letters e := by
  induction es with
  | nil => cases h
  | cons e es ih =>
    rw [List.sum_cons] at h
    rcases List.mem_append.mp h with h | h
    · exact ⟨e, List.mem_cons_self, h⟩
    · obtain ⟨e', he, h⟩ := ih h
      exact ⟨e', List.mem_cons_of_mem _ he, h⟩

lemma isCalm_of_mem_token {p : TokenKind → Bool} : ∀ a ∈ letters (token p), a.isCalm := by
  intro a ha
  obtain ⟨e, he, ha⟩ := mem_letters_sum ha
  obtain ⟨k, -, rfl⟩ := List.mem_map.mp he
  obtain rfl := List.mem_singleton.mp ha
  rfl

lemma isCalm_of_mem_header {p : TokenKind → Bool} : ∀ a ∈ letters (header p), a.isCalm := by
  refine List.forall_mem_append.mpr ⟨List.forall_mem_append.mpr ⟨List.forall_mem_append.mpr
    ⟨isCalm_of_mem_token, isCalm_of_mem_token⟩, ?_⟩, ?_⟩ <;> decide

end Shape

namespace Remark

def isUnexpected : Remark → Bool
  | fault d => match d.fault with
    | .unexpected _ _ => true
    | _ => false
  | openBlock => false

end Remark

namespace TagPart

def ownRemarks : TagPart → List Remark
  | tag sign none => [.atToken .emptyTag sign]
  | _ => []

variable {reported : Bool} {parts : List TagPart}

lemma filter_remarks (reported : Bool) (parts : List TagPart) :
    (remarks reported parts).filter (!·.isUnexpected) = parts.flatMap ownRemarks := by
  fun_induction remarks reported parts <;>
    simp_all [ownRemarks, Remark.isUnexpected, Remark.atToken, Diagnostic.atToken, Diagnostic.of]

lemma stray_of_mem_remarks :
    ∀ r ∈ remarks reported parts, r.isUnexpected →
      ∃ t, stray t ∈ parts ∧ r = .atToken (.unexpected t.kind .tags) t := by
  fun_induction remarks reported parts with
  | case1 => simp
  | case2 reported sign rest ih =>
    refine List.forall_mem_cons.mpr ⟨by rintro ⟨⟩, fun r hr unexpected => ?_⟩
    obtain ⟨t, ht, same⟩ := ih r hr unexpected
    exact ⟨t, List.mem_cons_of_mem _ ht, same⟩
  | case3 reported sign name rest ih | case4 t' rest ih =>
    intro r hr unexpected
    obtain ⟨t, ht, same⟩ := ih r hr unexpected
    exact ⟨t, List.mem_cons_of_mem _ ht, same⟩
  | case5 t' rest ih =>
    refine List.forall_mem_cons.mpr ⟨fun _ => ⟨t', List.mem_cons_self, rfl⟩, fun r hr unexpected => ?_⟩
    obtain ⟨t, ht, same⟩ := ih r hr unexpected
    exact ⟨t, List.mem_cons_of_mem _ ht, same⟩

lemma remark_of_stray (h : parts.any isStray) :
    ∃ t, stray t ∈ parts ∧ .atToken (.unexpected t.kind .tags) t ∈ remarks false parts := by
  induction parts with
  | nil => cases h
  | cons p rest ih =>
    cases p with
    | stray t => exact ⟨t, List.mem_cons_self, by simp [remarks]⟩
    | tag sign name =>
      obtain ⟨t, ht, hr⟩ := ih (by simpa [isStray] using h)
      refine ⟨t, List.mem_cons_of_mem _ ht, ?_⟩
      cases name with
      | none => exact List.mem_cons_of_mem _ hr
      | some name => exact hr

lemma isFlagged_tag (anchor : Mark) (flag : Bool) (cs : List Tree) :
    (node .tag anchor flag cs).IsFlagged :=
  ⟨fun _ => ⟨.tag, rfl, rfl⟩, by simp, by simp, by simp, by rintro r ⟨⟩ ⟨⟩⟩

lemma sites_tree {p : TagPart} (formed : p.IsFormed) : Sites [p.tree] p.ownRemarks := by
  cases p with
  | stray t => exact .leaves [t]
  | tag sign name =>
    obtain ⟨kind, -⟩ := formed
    have sign? (rest : List Tree) :
        (node .tag sign.start true (leaf sign :: rest)).sign? = some sign := by
      simp [Tree.sign?, Tree.ownTokens, Tree.children, Tree.token?, kind]
    cases name with
    | none =>
      refine Sites.ownNode (n := (tag sign none).tree) rfl rfl (isFlagged_tag _ _ _)
        (Sites.leaves [sign]) [.atToken .emptyTag sign] (fun f hf => ?_) ?_
      · cases f <;> simp [tree, Tree.faultsAt, sign?] at hf ⊢
      · exact List.forall_mem_singleton.mpr ⟨_, _, rfl, rfl⟩
    | some t =>
      refine Sites.ownNode (n := (tag sign (some t)).tree) rfl rfl (isFlagged_tag _ _ _)
        (Sites.leaves [sign, t]) [] (fun f hf => ?_) (by simp)
      cases f <;> simp [tree, built, Tree.faultsAt] at hf ⊢

end TagPart

namespace Line

lemma filterMap_token?_parts (parts : List TagPart) :
    (parts.map TagPart.tree).filterMap Tree.token? =
      parts.filterMap fun p => match p with
        | .stray t => some t
        | .tag _ _ => none := by
  rw [List.filterMap_map]
  congr
  funext p
  rcases p with ⟨sign, _ | name⟩ | t <;> rfl

lemma mem_ownTokens_tags {anchor : Mark} {flag : Bool} {parts : List TagPart} {t : Token} :
    t ∈ (node .tags anchor flag (parts.map TagPart.tree)).ownTokens ↔ .stray t ∈ parts := by
  rw [Tree.ownTokens, Tree.children, filterMap_token?_parts, List.mem_filterMap]
  constructor
  · rintro ⟨p, hp, here⟩
    cases p with
    | tag => cases here
    | stray u => exact Option.some.inj here ▸ hp
  · exact fun h => ⟨_, h, rfl⟩

lemma ownTokens_tags_ne_nil {anchor : Mark} {flag : Bool} {parts : List TagPart} :
    (node .tags anchor flag (parts.map TagPart.tree)).ownTokens ≠ [] ↔
      parts.any TagPart.isStray := by
  constructor
  · intro some
    obtain ⟨t, ht⟩ := List.exists_mem_of_ne_nil _ some
    exact List.any_eq_true.mpr ⟨_, mem_ownTokens_tags.mp ht, rfl⟩
  · intro any
    obtain ⟨p, hp, stray⟩ := List.any_eq_true.mp any
    cases p with
    | tag => cases stray
    | stray t => exact List.ne_nil_of_mem (mem_ownTokens_tags.mpr hp)

lemma sites_tagTrees {ls : List Line} (lexed : ∀ l ∈ ls, l.IsLexed)
    (signs : ∀ l ∈ ls, l.kind = .atSign) : Sites (tagTrees ls) (tagRemarks ls) := by
  cases ls with
  | nil => exact .nil
  | cons l rest =>
    rw [tagTrees]
    generalize l :: rest = ls at lexed signs
    have children : Sites ((ls.flatMap tagParts).map TagPart.tree)
        ((tagRemarks ls).filter (!·.isUnexpected)) := by
      rw [tagRemarks, List.filter_flatMap]
      simp only [TagPart.filter_remarks]
      rw [← List.flatMap_assoc]
      refine .map fun p hp => TagPart.sites_tree ?_
      obtain ⟨l', hl, hp⟩ := List.mem_flatMap.mp hp
      exact isFormed_of_mem_tagParts (lexed l' hl) (signs l' hl) p hp
    have split := List.filter_append_perm Remark.isUnexpected (tagRemarks ls)
    refine (children.strayNode (n := node .tags l.start _ _) rfl rfl
      (.of_takesStray rfl rfl ownTokens_tags_ne_nil.symm) (fun r hr => ?_) fun some => ?_).perm split
    · obtain ⟨mem, unexpected⟩ := List.mem_filter.mp hr
      obtain ⟨l', hl, hr⟩ := List.mem_flatMap.mp mem
      obtain ⟨t, ht, rfl⟩ := TagPart.stray_of_mem_remarks _ hr unexpected
      exact ⟨t, mem_ownTokens_tags.mpr (List.mem_flatMap.mpr ⟨l', hl, ht⟩), rfl⟩
    · obtain ⟨p, hp, here⟩ := List.any_eq_true.mp (ownTokens_tags_ne_nil.mp some)
      obtain ⟨l', hl, hp⟩ := List.mem_flatMap.mp hp
      obtain ⟨t, ht, hr⟩ := TagPart.remark_of_stray (List.any_eq_true.mpr ⟨p, hp, here⟩)
      have mem : .atToken (.unexpected t.kind .tags) t ∈ tagRemarks ls :=
        List.mem_flatMap.mpr ⟨l', hl, hr⟩
      exact ⟨t, mem_ownTokens_tags.mpr (List.mem_flatMap.mpr ⟨l', hl, ht⟩),
        List.mem_filter.mpr ⟨mem, rfl⟩⟩

end Line

namespace Entry

variable {α : Type} {entries : List (Entry α)} {context : Rule} {anchor : Mark} {member : α → Tree}

def ownRemarks (context : Rule) : Entry α → List Remark
  | placed _ => []
  | stray i => [i.unexpected context]

def memberRemarks (remarks : α → List Remark) : Entry α → List Remark
  | placed a => remarks a
  | stray _ => []

lemma remarks_perm (context : Rule) (remarks : α → List Remark) (entries : List (Entry α)) :
    (entries.flatMap (ownRemarks context) ++ entries.flatMap (memberRemarks remarks)).Perm
      (entries.flatMap (Entry.remarks context remarks)) := by
  have same : Entry.remarks context remarks =
      fun e => e.ownRemarks context ++ e.memberRemarks remarks := by
    funext e
    cases e <;> simp [Entry.remarks, ownRemarks, memberRemarks]
  rw [same]
  exact List.flatMap_append_perm _ _ _

lemma head_mem_tokens (i : Item) : i.head ∈ i.tokens := by
  cases i with
  | line l => simp [Item.head, Item.tokens, Line.tokens]
  | block b => simp [Item.head, Item.tokens, Block.tokens, Line.tokens]

lemma mem_ownTokens {t : Token} (nodes : ∀ a, (member a).isNode) :
    t ∈ (sectionTree context anchor member entries).ownTokens ↔
      ∃ i, .stray i ∈ entries ∧ t ∈ i.tokens := by
  rw [sectionTree, Tree.ownTokens, Tree.children, List.mem_filterMap]
  constructor
  · rintro ⟨u, hu, here⟩
    obtain ⟨e, he, hu⟩ := List.mem_flatMap.mp hu
    cases e with
    | placed a =>
      obtain rfl := List.mem_singleton.mp hu
      cases same : member a with
      | leaf =>
        have isNode := nodes a
        rw [same] at isNode
        cases isNode
      | node => simp [same, Tree.token?] at here
    | stray i =>
      obtain ⟨u', hu', rfl⟩ := List.mem_map.mp hu
      obtain rfl := Option.some.inj here
      exact ⟨i, he, hu'⟩
  · rintro ⟨i, hi, ht⟩
    exact ⟨leaf t, List.mem_flatMap.mpr ⟨_, hi, List.mem_map_of_mem ht⟩, rfl⟩

lemma ownTokens_ne_nil (nodes : ∀ a, (member a).isNode) :
    (sectionTree context anchor member entries).ownTokens ≠ [] ↔ entries.any isStray := by
  constructor
  · intro some
    obtain ⟨t, ht⟩ := List.exists_mem_of_ne_nil _ some
    obtain ⟨i, hi, -⟩ := (mem_ownTokens nodes).mp ht
    exact List.any_eq_true.mpr ⟨_, hi, rfl⟩
  · intro any
    obtain ⟨e, he, stray⟩ := List.any_eq_true.mp any
    cases e with
    | placed => cases stray
    | stray i => exact List.ne_nil_of_mem ((mem_ownTokens nodes).mpr ⟨i, he, head_mem_tokens i⟩)

lemma sites_sectionTree {remarks : α → List Remark} (takes : context.takesStray)
    (nodes : ∀ a, (member a).isNode)
    (members : ∀ a, .placed a ∈ entries → Sites [member a] (remarks a)) :
    Sites [sectionTree context anchor member entries]
      (entries.flatMap (Entry.remarks context remarks)) := by
  have children : Sites (sectionTree context anchor member entries).children
      (entries.flatMap (memberRemarks remarks)) := by
    refine Sites.flatMap fun e he => ?_
    cases e with
    | placed a => exact members a he
    | stray i => exact .leaves i.tokens
  have flagged : (sectionTree context anchor member entries).IsFlagged :=
    .of_takesStray rfl takes (ownTokens_ne_nil nodes).symm
  refine (children.strayNode rfl takes flagged (fun r hr => ?_) fun some => ?_).perm
    (remarks_perm context remarks entries)
  · obtain ⟨e, he, hr⟩ := List.mem_flatMap.mp hr
    cases e with
    | placed => cases hr
    | stray i =>
      obtain rfl := List.mem_singleton.mp hr
      exact ⟨i.head, (mem_ownTokens nodes).mpr ⟨i, he, head_mem_tokens i⟩, rfl⟩
  · obtain ⟨e, he, stray⟩ := List.any_eq_true.mp ((ownTokens_ne_nil nodes).mp some)
    cases e with
    | placed => cases stray
    | stray i =>
      exact ⟨i.head, (mem_ownTokens nodes).mpr ⟨i, he, head_mem_tokens i⟩,
        List.mem_flatMap.mpr ⟨_, he, List.mem_cons_self⟩⟩

end Entry

variable (o : Options)

namespace Line

lemma isNeutral_of_mem_unevenRows {expected row : Nat} {ls : List Line} :
    ∀ r ∈ unevenRows o expected row ls, r.isNeutral := by
  induction ls generalizing row with
  | nil => simp [unevenRows]
  | cons l rest ih =>
    rw [unevenRows]
    split
    · exact List.forall_mem_cons.mpr ⟨rfl, ih⟩
    · exact ih

lemma sites_tableTrees {ls : List Line} (lexed : ∀ l ∈ ls, l.IsLexed)
    (bars : ∀ l ∈ ls, l.kind = .pipe) : Sites (tableTrees ls) (tableRemarks o ls) := by
  refine .neutral (.calm (fits_tableTrees lexed bars) (by decide) (isPlain_tableTrees ls).error) ?_
  cases ls with
  | nil => simp [tableRemarks]
  | cons l rest => exact isNeutral_of_mem_unevenRows o

end Line

lemma Block.sites (b : Block) : Sites [b.tree] b.remarks := by
  have value : Sites [built .docStringsValue b.opening.stop (b.content.map leaf)] [] :=
    (Sites.leaves b.content).built _ rfl
  have closing : Sites b.closingTrees [] := by
    rw [closingTrees]
    split
    · exact .nil
    · exact .leaves _
  have children : Sites b.tree.children [] :=
    (Sites.leaves b.opening.tokens).append (value.append closing)
  have flagged : b.tree.IsFlagged := by
    refine ⟨fun _ => ⟨.docStrings, rfl, rfl⟩, ?_, ?_, ?_, by rintro r ⟨⟩ ⟨⟩⟩ <;> simp [tree]
  have whole : Sites [b.tree] [] :=
    Sites.ownNode rfl rfl flagged children []
      (fun f _ => by cases f <;> simp [tree, Tree.faultsAt]) (by simp)
  refine whole.neutral ?_
  rw [Block.remarks]
  split
  · exact List.forall_mem_singleton.mpr rfl
  · simp

lemma Step.sites {s : Step} (formed : s.IsFormed) (lexed : ∀ i ∈ s.items, i.IsLexed) :
    Sites [s.tree] (s.remarks o) := by
  have front : Sites [leaf s.line.head, Line.nameTree s.line.head s.line.tail] [] :=
    (Sites.leaves [s.line.head]).append
      (.calm (fits_name formed lexed) (by decide) (Line.isPlain_nameTree _ _).error)
  have doc : Sites (s.block.toList.map Block.tree) (s.block.toList.flatMap Block.remarks) :=
    .map fun b _ => b.sites
  have table := Line.sites_tableTrees o (isLexed_rows lexed) formed.rows
  exact (front.append (doc.append table)).built _ rfl

lemma Steps.sites {s : Steps} (formed : s.IsFormed) (lexed : ∀ i ∈ s.items, i.IsLexed) :
    Sites [s.tree] (s.remarks o) :=
  Entry.sites_sectionTree rfl (fun _ => rfl) fun _ ha => Step.sites o (formed _ ha)
    fun i hi => lexed i (List.mem_flatMap.mpr ⟨_, ha, hi⟩)

lemma Heading.sites {h : Heading} (formed : h.IsFormed) (lexed : ∀ i ∈ h.items, i.IsLexed) :
    Sites h.trees h.remarks := by
  obtain ⟨tags, -⟩ := List.forall_mem_append.mp lexed
  have front := Line.sites_tagTrees (Item.isLexed_of_map_line tags) formed.tags
  have header := Heading.fits_header (p := fun _ => true) formed lexed rfl
  have error : anyError (h.header.headerTrees ++ [h.descriptionTree]) = false := by
    simp [(Line.isPlain_headerTrees h.header).error, descriptionTree,
      (Line.isPlain_tokenTrees h.description).error]
  have rest : Sites (h.header.headerTrees ++ [h.descriptionTree]) [] :=
    .calm header Shape.isCalm_of_mem_header error
  have whole := front.append rest
  rwa [List.append_nil, ← List.append_assoc] at whole

namespace Heading

variable {h : Heading}

lemma rank_of_mem_trees (h : Heading) : ∀ t ∈ h.trees, t.rank ≤ 2 := by
  have tags : ∀ t ∈ Line.tagTrees h.tags, t.rank ≤ 2 := by
    cases h.tags with
    | nil => simp [Line.tagTrees]
    | cons l rest => exact List.forall_mem_singleton.mpr (Nat.le_refl 2)
  have header : ∀ t ∈ h.header.headerTrees, t.rank ≤ 2 := by
    have token (t : Token) : (leaf t).rank ≤ 2 := Nat.zero_le 2
    have name (keyword : Token) (rest : List Token) : (Line.nameTree keyword rest).rank ≤ 2 :=
      Nat.le_refl 2
    rw [Line.headerTrees]
    split
    · simp [token, name]
    · split <;> simp [token, name]
  refine List.forall_mem_append.mpr ⟨List.forall_mem_append.mpr ⟨tags, header⟩, ?_⟩
  exact List.forall_mem_singleton.mpr (Nat.le_succ 1)

lemma ofRule_of_mem_trees (h : Heading) {rule : Rule} (high : 2 < rule.rank) :
    ∀ t ∈ h.trees, t.ofRule rule = false := by
  intro t ht
  rw [Bool.eq_false_iff]
  intro here
  have low := h.rank_of_mem_trees t ht
  rw [Tree.rank_of_ofRule here] at low
  omega

lemma find?_trees_eq_none (h : Heading) {rule : Rule} (high : 2 < rule.rank) :
    h.trees.find? (Tree.ofRule rule) = none :=
  List.find?_eq_none.mpr fun t ht => by simp [h.ofRule_of_mem_trees high t ht]

lemma head?_leaves (formed : h.IsFormed) (ts : List Tree) :
    (Tree.leavesOf (h.trees ++ ts)).head? = some h.head := by
  have keyword : (Tree.leavesOf h.header.headerTrees).head? = some h.header.head := by
    rw [Line.headerTrees]
    split
    · simp
    · split <;> simp
  rw [trees, head]
  cases tags : h.tags with
  | nil => simp [Line.tagTrees, keyword]
  | cons l rest =>
    have sign : l.head.kind = .atSign := formed.tags l (tags ▸ List.mem_cons_self)
    simp [Line.tagTrees, Line.tagParts, TagPart.ofTokens, sign, TagPart.leaves_tag]

end Heading

namespace Examples

variable {e : Examples}

lemma keyword?_tree (formed : e.IsFormed) : e.tree.keyword? = some e.heading.keyword :=
  Heading.find?_trees formed.heading _

lemma isFlagged_tree (e : Examples) : e.tree.IsFlagged := by
  refine ⟨fun _ => ⟨.examples, rfl, rfl⟩, fun _ => ?_, by simp [tree], by simp [tree],
    by rintro r ⟨⟩ ⟨⟩⟩
  have front : e.heading.trees.find? (Tree.ofRule .table) = none :=
    e.heading.find?_trees_eq_none (by decide)
  have whole : e.tree.child? .table = (Line.tableTrees e.rows).find? (Tree.ofRule .table) := by
    rw [Tree.child?, tree, Tree.children, List.find?_append, front, Option.none_or]
  rw [whole, tree, Tree.recovered_node]
  cases e.rows <;> simp [Line.tableTrees, built]

lemma sites (formed : e.IsFormed) (lexed : ∀ i ∈ e.items, i.IsLexed) :
    Sites [e.tree] (e.remarks o) := by
  obtain ⟨heading, rows⟩ := List.forall_mem_append.mp lexed
  have children : Sites e.tree.children (e.heading.remarks ++ Line.tableRemarks o e.rows) :=
    (Heading.sites formed.heading heading).append
      (Line.sites_tableTrees o (Item.isLexed_of_map_line rows) formed.rows)
  have keyword := keyword?_tree formed
  rw [remarks]
  cases rows : e.rows with
  | nil =>
    rw [rows, Line.tableRemarks, List.append_nil] at children
    have flag : e.tree.recovered = true := by simp [tree, rows]
    refine (Sites.ownNode rfl rfl (isFlagged_tree e) children
      [.atToken .missingTable e.heading.keyword] (fun f hf => ?_) ?_).perm
      List.perm_append_comm
    · cases f <;> simp [Tree.faultsAt, flag, keyword] at hf ⊢
      all_goals simp [tree]
    · exact List.forall_mem_singleton.mpr ⟨_, _, rfl, rfl⟩
  | cons l rest =>
    have flag : e.tree.recovered = false := by simp [tree, rows]
    rw [rows] at children
    refine Sites.ownNode rfl rfl (isFlagged_tree e) children [] (fun f hf => ?_) (by simp)
    cases f <;> simp [Tree.faultsAt, flag] at hf ⊢
    simp [tree]

lemma head?_leaves_tree (formed : e.IsFormed) : e.tree.leaves.head? = some e.heading.head := by
  rw [tree, Tree.leaves_node]
  exact Heading.head?_leaves formed.heading _

end Examples

namespace Scenario

variable {s : Scenario}

lemma child?_tree (s : Scenario) :
    s.tree.child? .examples = (s.examples.map Examples.tree).head? := by
  have front : s.heading.trees.find? (Tree.ofRule .examples) = none :=
    s.heading.find?_trees_eq_none (by decide)
  have steps : s.steps.tree.ofRule .examples = false := rfl
  rw [Tree.child?, tree, Tree.children, List.find?_append, front, Option.none_or,
    List.find?_cons_of_neg (by simp [steps])]
  cases s.examples with
  | nil => rfl
  | cons e es => rw [List.map_cons, List.find?_cons_of_pos rfl, List.head?_cons]

lemma childrenOf_tree (s : Scenario) : s.tree.childrenOf .examples = s.examples.map Examples.tree := by
  have front : s.heading.trees.filter (Tree.ofRule .examples) = [] := by
    rw [List.filter_eq_nil_iff]
    intro t ht
    simp [s.heading.ofRule_of_mem_trees (by decide : 2 < Rule.examples.rank) t ht]
  have steps : s.steps.tree.ofRule .examples = false := rfl
  have all : (s.examples.map Examples.tree).filter (Tree.ofRule .examples) =
      s.examples.map Examples.tree := by
    rw [List.filter_eq_self]
    intro t ht
    obtain ⟨e, -, rfl⟩ := List.mem_map.mp ht
    rfl
  rw [Tree.childrenOf, tree, Tree.children, List.filter_append, front, List.nil_append,
    List.filter_cons_of_neg (by simp [steps]), all]

lemma isFlagged_tree (s : Scenario) : s.tree.IsFlagged := by
  have child : s.tree.child? .examples = none ↔ s.examples = [] := by simp [child?_tree]
  refine ⟨fun _ => ?_, ?_, fun outline => ?_, fun scenario => ?_, ?_⟩
  · rw [tree, rule]
    split <;> exact ⟨_, rfl, rfl⟩
  · rw [tree, rule]
    split <;> simp
  · have kind : s.isOutline := by
      by_contra plain
      simp [tree, rule, plain] at outline
    rw [child]
    simp [tree, isFaulty, kind]
  · have kind : s.isOutline = false := by
      rw [Bool.eq_false_iff]
      intro outline
      simp [tree, rule, outline] at scenario
    rw [ne_eq, child]
    simp [tree, isFaulty, kind]
  · rw [tree, rule]
    split <;> rintro r ⟨⟩ ⟨⟩

lemma told_ownRemarks (formed : s.IsFormed) {f : Fault} (own : f.isOwn) :
    (told f s.ownRemarks).map some = (s.tree.faultsAt f).map (Option.map (.atToken f)) := by
  have keyword : s.tree.keyword? = some s.heading.header.head := keyword?_tree formed
  have begins : (s.tree.childrenOf .examples).map (·.leaves.head?) =
      s.examples.map fun e => some e.heading.head := by
    rw [childrenOf_tree, List.map_map]
    exact List.map_congr_left fun e he => Examples.head?_leaves_tree (formed.examples e he)
  by_cases kind : s.isOutline
  · have here : s.tree.rule? = some .scenarioOutline := by simp [tree, Tree.rule?, rule, kind]
    have flag : s.tree.recovered = s.examples.isEmpty := by simp [tree, isFaulty, kind]
    cases none : s.examples <;> rw [none] at flag <;> cases f <;>
      simp [Tree.faultsAt, Tree.ofRule, here, flag, keyword, ownRemarks, kind, none] at own ⊢
  · have here : s.tree.rule? = some .scenario := by simp [tree, Tree.rule?, rule, kind]
    cases f <;> simp [Tree.faultsAt, Tree.ofRule, here, begins, ownRemarks, kind] at own ⊢

lemma remarks_perm (s : Scenario) :
    (s.ownRemarks ++ (s.heading.remarks ++ s.steps.remarks o ++
      s.examples.flatMap (Examples.remarks o))).Perm (s.remarks o) := by
  have examples : (s.ownRemarks ++ s.examples.flatMap (Examples.remarks o)).Perm
      (s.examplesRemarks o) := by
    rw [ownRemarks, examplesRemarks]
    split
    · cases s.examples <;> simp
    · exact List.map_append_flatMap_perm _ _ _
  rw [remarks]
  refine .trans ?_ (examples.append_left _)
  rw [← List.append_assoc, ← List.append_assoc (s.heading.remarks ++ s.steps.remarks o)]
  exact List.perm_append_comm.append_right _

lemma sites (formed : s.IsFormed) (lexed : ∀ i ∈ s.items, i.IsLexed) :
    Sites [s.tree] (s.remarks o) := by
  obtain ⟨front, examples⟩ := List.forall_mem_append.mp lexed
  obtain ⟨heading, steps⟩ := List.forall_mem_append.mp front
  have below : Sites (s.examples.map Examples.tree) (s.examples.flatMap (Examples.remarks o)) :=
    .map fun e he => Examples.sites o (formed.examples e he)
      fun i hi => examples i (List.mem_flatMap.mpr ⟨e, he, hi⟩)
  have children : Sites s.tree.children (s.heading.remarks ++ s.steps.remarks o ++
      s.examples.flatMap (Examples.remarks o)) := by
    have whole := ((Heading.sites formed.heading heading).append
      (Steps.sites o formed.steps steps)).append below
    rwa [List.append_assoc s.heading.trees] at whole
  have stays : s.rule.takesStray = false := by
    rw [rule]
    split <;> rfl
  refine (Sites.ownNode rfl stays s.isFlagged_tree children s.ownRemarks (fun f => told_ownRemarks formed)
    ?_).perm (s.remarks_perm o)
  rw [ownRemarks]
  split
  · split
    · exact List.forall_mem_singleton.mpr ⟨_, _, rfl, rfl⟩
    · simp
  · intro r hr
    obtain ⟨e, -, rfl⟩ := List.mem_map.mp hr
    exact ⟨_, _, rfl, rfl⟩

end Scenario

lemma Scenarios.sites {s : Scenarios} (formed : s.IsFormed) (lexed : ∀ i ∈ s.items, i.IsLexed) :
    Sites [s.tree] (s.remarks o) :=
  Entry.sites_sectionTree rfl (fun _ => rfl) fun _ ha => Scenario.sites o (formed _ ha)
    fun i hi => lexed i (List.mem_flatMap.mpr ⟨_, ha, hi⟩)

lemma Background.sites {b : Background} (formed : b.IsFormed) (lexed : ∀ i ∈ b.items, i.IsLexed) :
    Sites [b.tree] (b.remarks o) := by
  obtain ⟨heading, steps⟩ := List.forall_mem_append.mp lexed
  exact ((Heading.sites formed.heading heading).append (Steps.sites o formed.steps steps)).built _ rfl

lemma Background.sites_trees {found : Option Background} (formed : ∀ b ∈ found, b.IsFormed)
    (lexed : ∀ i ∈ found.toList.flatMap items, i.IsLexed) :
    Sites (found.toList.map tree) (found.toList.flatMap (remarks o)) :=
  .map fun b hb => sites o (formed b (by simpa using hb))
    fun i hi => lexed i (List.mem_flatMap.mpr ⟨b, hb, hi⟩)

lemma BusinessRule.sites {r : BusinessRule} (formed : r.IsFormed)
    (lexed : ∀ i ∈ r.items, i.IsLexed) : Sites [r.tree] (r.remarks o) := by
  obtain ⟨front, scenarios⟩ := List.forall_mem_append.mp lexed
  obtain ⟨heading, background⟩ := List.forall_mem_append.mp front
  have whole := ((Heading.sites formed.heading heading).append
    (Background.sites_trees o formed.background background)).append
    (Scenarios.sites o formed.scenarios scenarios)
  rw [List.append_assoc r.heading.trees] at whole
  exact whole.built _ rfl

lemma Content.sites {c : Content} (anchor : Mark) (formed : c.IsFormed)
    (lexed : ∀ i ∈ c.items, i.IsLexed) : Sites [c.tree anchor] (c.remarks o) := by
  cases c with
  | scenarios s => exact Scenarios.sites o formed lexed
  | rules es =>
    obtain ⟨rs, rfl, -, each⟩ := formed.rules_eq
    rw [items_rules] at lexed
    rw [tree_rules, remarks_rules]
    exact (Sites.map fun r hr => BusinessRule.sites o (each r hr)
      fun i hi => lexed i (List.mem_flatMap.mpr ⟨r, hr, hi⟩)).built _ rfl

namespace Feature

variable {f : Feature}

lemma sites_headingTrees (formed : f.IsFormed)
    (lexed : ∀ i ∈ f.opening.heading.toList.flatMap Heading.items, i.IsLexed) :
    Sites f.opening.headingTrees (f.opening.heading.toList.flatMap Heading.remarks) := by
  rw [Opening.headingTrees]
  cases here : f.opening.heading with
  | none => exact (Sites.nil.built _ rfl).append (Sites.nil.built _ rfl)
  | some h => simpa using Heading.sites (formed.heading h here).1 (by simpa [here] using lexed)

lemma sites_children (formed : f.IsFormed) (lexed : ∀ i ∈ f.items, i.IsLexed) :
    Sites f.tree.children (f.opening.heading.toList.flatMap Heading.remarks ++
      f.background.toList.flatMap (Background.remarks o) ++ f.content.remarks o) := by
  obtain ⟨front, content⟩ := List.forall_mem_append.mp lexed
  obtain ⟨heading, background⟩ := List.forall_mem_append.mp front
  have junk : Sites (f.opening.junk.flatMap Line.tokenTrees) [] := by
    have same : f.opening.junk.flatMap Line.tokenTrees =
        (f.opening.junk.flatMap Line.tokens).map leaf := by
      rw [List.map_flatMap]
      rfl
    exact same ▸ .leaves _
  have body : Sites [f.bodyTree]
      (f.background.toList.flatMap (Background.remarks o) ++ f.content.remarks o) :=
    ((Background.sites_trees o formed.background background).append
      (Content.sites o f.anchor formed.content content)).built _ rfl
  have whole := (junk.append (sites_headingTrees formed heading)).append body
  rwa [List.nil_append, ← List.append_assoc] at whole

end Feature

end FeatureFile
