import Mathlib.Computability.RegularExpressions
import FeatureFile.Proofs.Document.Formed
import FeatureFile.Proofs.Tree.Nodes

namespace FeatureFile

open RegularExpression (char star)

inductive Part where
  | token (kind : TokenKind)
  | child (rule : Rule)
  deriving DecidableEq, Repr

def Tree.part : Tree → Part
  | leaf t => .token t.kind
  | node rule _ _ _ => .child rule

namespace Shape

def token (p : TokenKind → Bool) : RegularExpression Part :=
  ((TokenKind.all.filter p).map fun k => char (.token k)).sum

def child (rule : Rule) : RegularExpression Part :=
  char (.child rule)

def opt (e : RegularExpression Part) : RegularExpression Part :=
  1 + e

def header (p : TokenKind → Bool) : RegularExpression Part :=
  token p * token (· = .colon) * child .name * child .description

def heading (p : TokenKind → Bool) : RegularExpression Part :=
  opt (child .tags) * header p

def closing : RegularExpression Part :=
  star (token (·.isPad)) * token (· = .fence)

end Shape

open Shape in
def Rule.shape : Rule → RegularExpression Part
  | feature =>
    star (token (!·.isSection)) *
      (heading (· = .header .feature) + child .name * child .description) * child .featureBody
  | featureBody => opt (child .background) * (child .scenarios + child .businessRules)
  | businessRules => child .businessRule * star (child .businessRule)
  | businessRule => heading (· = .header .rule) * opt (child .background) * child .scenarios
  | background => header (· = .header .background) * child .steps
  | scenarios => star (child .scenario + child .scenarioOutline + token (!·.isScenario))
  | scenario =>
    heading (fun k => k = .header .scenario || k = .header .example) * child .steps *
      star (child .examples)
  | scenarioOutline =>
    heading (· = .header .outline) * child .steps * star (child .examples)
  | examples => heading TokenKind.isExamples * opt (child .table)
  | steps => star (child .step + token TokenKind.isLoose)
  | step => token TokenKind.isStep * child .name * opt (child .docStrings) * opt (child .table)
  | tags => child .tag * star (child .tag + token (· = .text))
  | tag => token (· = .atSign) * opt (token (· = .text))
  | name => star (child .parameter + token fun k => k.isPad || k = .text || k = .placeholder)
  | parameter => token TokenKind.isLiteral
  | description => star (token fun k => k.isFree || k = .eol)
  | docStrings =>
    token (· = .fence) * star (token TokenKind.isVerbatim) * opt (token (· = .eol)) *
      child .docStringsValue * opt closing
  | docStringsValue => star (token fun k => k.isVerbatim || k = .eol)
  | table => child .tableHead * child .tableRows
  | tableHead => child .tableRow
  | tableRows => star (child .tableRow)
  | tableRow => star (child .tableCell) * opt (token (· = .pipe) * star (token (·.isPad)))
  | tableCell =>
    token (· = .pipe) * star (token (·.isPad)) *
      opt (child .tableCellValue * star (token (·.isPad)))
  | tableCellValue => token (· = .cell)

namespace Tree

def IsShaped (t : Tree) : Prop :=
  ∃ rule, t.rule? = some rule ∧ t.children.map part ∈ rule.shape.matches'

structure Fits (e : RegularExpression Part) (ts : List Tree) : Prop where
  word : ts.map part ∈ e.matches'
  nodes : ∀ n ∈ nodesOf ts, n.IsShaped

end Tree

lemma TokenKind.mem_all (k : TokenKind) : k ∈ all := by
  cases k with
  | header word => cases word <;> simp [all]
  | step word => cases word <;> simp [all]
  | _ => simp [all]

lemma Shape.mem_sum {es : List (RegularExpression Part)} {e : RegularExpression Part}
    {w : List Part} (mem : e ∈ es) (word : w ∈ e.matches') : w ∈ es.sum.matches' := by
  induction es with
  | nil => cases mem
  | cons e' es ih =>
    rw [List.sum_cons]
    rcases List.mem_cons.mp mem with rfl | mem
    · exact .inl word
    · exact .inr (ih mem)

namespace Tree.Fits

open Shape

variable {e e' : RegularExpression Part} {ts us : List Tree} {p : TokenKind → Bool}

lemma nil : Fits 1 [] :=
  ⟨rfl, by simp⟩

lemma mul (h : Fits e ts) (h' : Fits e' us) : Fits (e * e') (ts ++ us) := by
  refine ⟨?_, by simpa [or_imp, forall_and] using ⟨h.nodes, h'.nodes⟩⟩
  rw [List.map_append, RegularExpression.matches'_mul]
  exact Language.append_mem_mul h.word h'.word

lemma left (h : Fits e ts) : Fits (e + e') ts :=
  ⟨.inl h.word, h.nodes⟩

lemma right (h : Fits e' ts) : Fits (e + e') ts :=
  ⟨.inr h.word, h.nodes⟩

lemma opt_nil : Fits (opt e) [] :=
  nil.left

lemma opt (h : Fits e ts) : Fits (opt e) ts :=
  h.right

lemma star_nil : Fits (star e) [] :=
  ⟨Language.nil_mem_kstar _, by simp⟩

lemma star_append (h : Fits (star e) ts) (h' : Fits (star e) us) : Fits (star e) (ts ++ us) := by
  refine ⟨?_, by simpa [or_imp, forall_and] using ⟨h.nodes, h'.nodes⟩⟩
  obtain ⟨words, whole, each⟩ := Language.mem_kstar.mp h.word
  obtain ⟨words', whole', each'⟩ := Language.mem_kstar.mp h'.word
  rw [List.map_append, whole, whole', ← List.flatten_append]
  exact Language.join_mem_kstar (List.forall_mem_append.mpr ⟨each, each'⟩)

lemma once (h : Fits e ts) : Fits (star e) ts := by
  have word := Language.join_mem_kstar (L := [ts.map part]) (by simpa using h.word)
  exact ⟨by simpa using word, h.nodes⟩

lemma star_flatMap {α : Type} {f : α → List Tree} {as : List α}
    (h : ∀ a ∈ as, Fits (star e) (f a)) : Fits (star e) (as.flatMap f) := by
  induction as with
  | nil => exact star_nil
  | cons a as ih =>
    obtain ⟨first, rest⟩ := List.forall_mem_cons.mp h
    exact first.star_append (ih rest)

lemma star_map {α : Type} {f : α → Tree} {as : List α} (h : ∀ a ∈ as, Fits e [f a]) :
    Fits (star e) (as.map f) := by
  have whole := star_flatMap fun a ha => (h a ha).once
  rwa [← List.map_eq_flatMap] at whole

lemma opt_map {α : Type} {f : α → Tree} {o : Option α} (h : ∀ a ∈ o, Fits e [f a]) :
    Fits (Shape.opt e) (o.toList.map f) := by
  cases o with
  | none => exact opt_nil
  | some a => exact (h a rfl).opt

lemma leaf {t : Token} (h : p t.kind) : Fits (token p) [.leaf t] := by
  refine ⟨?_, by simp⟩
  have mem : t.kind ∈ TokenKind.all.filter p := List.mem_filter.mpr ⟨TokenKind.mem_all _, h⟩
  exact mem_sum (List.mem_map_of_mem mem) rfl

lemma leaves {tokens : List Token} (h : ∀ t ∈ tokens, p t.kind) :
    Fits (star (token p)) (tokens.map .leaf) :=
  star_map fun t ht => leaf (h t ht)

lemma node {rule : Rule} (anchor : Mark) {recovered : Bool} (h : Fits rule.shape ts) :
    Fits (child rule) [.node rule anchor recovered ts] := by
  refine ⟨rfl, ?_⟩
  rw [nodesOf_cons, nodes_node, nodesOf_nil, List.append_nil]
  exact List.forall_mem_cons.mpr ⟨⟨rule, rfl, h.word⟩, h.nodes⟩

lemma built {rule : Rule} (anchor : Mark) (h : Fits rule.shape ts) :
    Fits (child rule) [Tree.built rule anchor ts] :=
  h.node anchor

end Tree.Fits

end FeatureFile
