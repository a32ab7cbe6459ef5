import FeatureFile.Proofs.FreeText.Scan
import FeatureFile.Proofs.HeaderKeywords
import FeatureFile.Proofs.Literal.Denotes
import FeatureFile.Proofs.Tree.Complete
import FeatureFile.Proofs.Tree.LineParts

namespace FeatureFile

open Text (isBreak)

namespace Literal

variable {c : Char} {rest : List Char} {more : Nat}

lemma take_string (found : string c rest = some more) :
    ∃ inner, rest.take more = inner ++ [c] ∧ ∀ d ∈ inner, d ≠ c ∧ isBreak d = false := by
  induction rest generalizing more with
  | nil => cases found
  | cons d rest ih =>
    rw [string] at found
    split at found
    · cases found
    next inline =>
      split at found
      next same =>
        obtain rfl := Option.some.inj found
        exact ⟨[], by simp [same], by simp⟩
      next other =>
        obtain ⟨n, below, rfl⟩ := Option.map_eq_some_iff.mp found
        obtain ⟨inner, taken, clean⟩ := ih below
        refine ⟨d :: inner, by simp [taken], List.forall_mem_cons.mpr ⟨⟨other, ?_⟩, clean⟩⟩
        exact Bool.eq_false_iff.mpr inline

lemma take_digitCount (text : List Char) :
    text.take (digitCount text) = text.takeWhile Char.isDigit :=
  (List.prefix_iff_eq_take.mp (List.takeWhile_prefix _)).symm

lemma take_fraction (some : fraction rest ≠ 0) :
    ∃ part, rest.take (fraction rest) = '.' :: part ∧ part ≠ [] ∧ ∀ d ∈ part, d.isDigit := by
  revert some
  fun_cases fraction rest with
  | case1 => exact fun none => absurd rfl none
  | case3 => exact fun none => absurd rfl none
  | case2 rest digits =>
    intro _
    refine ⟨rest.takeWhile Char.isDigit, by rw [List.take_succ_cons, take_digitCount],
      fun none => digits (by rw [digitCount, none, List.length_nil]),
      fun d hd => List.mem_takeWhile_imp hd⟩

lemma denotes_string (quote : isQuote c) (found : string c rest = some more) :
    LiteralKind.string.Denotes (c :: rest.take more) (Value.read? .string (c :: rest.take more)) := by
  obtain ⟨inner, taken, clean⟩ := take_string found
  have value : Value.read? .string (c :: (inner ++ [c])) = some (.string inner) := by
    rw [Value.read?, Value.unquote?, if_pos quote, Value.closed?_append, Option.map_some]
  rw [taken, value]
  exact .string quote clean

lemma denotes_number {kind : TokenKind} {k : LiteralKind} (digit : c.isDigit)
    (found : number rest = some (kind, more)) (literal : LiteralKind.ofToken? kind = some k) :
    k.Denotes (c :: rest.take more) (Value.read? k (c :: rest.take more)) := by
  have whole : ∀ d ∈ c :: rest.take (digitCount rest), d.isDigit :=
    List.forall_mem_cons.mpr ⟨digit, isDigit_of_mem_take_digitCount rest⟩
  have nonempty : c :: rest.take (digitCount rest) ≠ [] := List.cons_ne_nil _ _
  simp only [number] at found
  split at found
  · cases found
  · obtain ⟨rfl, rfl⟩ := Prod.mk.inj (Option.some.inj found)
    split at literal
    next none =>
      obtain rfl := Option.some.inj literal
      rw [none, Nat.add_zero, Value.read?, Number.int64?_eq nonempty whole, apply_ite (Option.map _),
        Option.map_some, Option.map_none]
      exact .decimal nonempty whole
    next point =>
      obtain rfl := Option.some.inj literal
      obtain ⟨part, taken, some, digits⟩ := take_fraction point
      have text : c :: rest.take (digitCount rest + fraction (rest.drop (digitCount rest))) =
          (c :: rest.take (digitCount rest)) ++ '.' :: part := by
        rw [List.take_add, taken, List.cons_append]
      rw [text, Value.read?, Number.Double.read?_eq_some nonempty whole digits, Option.map_some]
      exact .float nonempty whole some digits

lemma denotes_scan {kind : TokenKind} {k : LiteralKind} (found : scan c rest = some (kind, more))
    (literal : LiteralKind.ofToken? kind = some k) :
    k.Denotes (c :: rest.take more) (Value.read? k (c :: rest.take more)) := by
  rw [scan] at found
  split at found
  next quote =>
    obtain ⟨n, closed, same⟩ := Option.map_eq_some_iff.mp found
    obtain ⟨rfl, rfl⟩ := Prod.mk.inj same
    obtain rfl := Option.some.inj literal
    exact denotes_string quote closed
  next =>
    split at found
    next =>
      obtain ⟨n, -, same⟩ := Option.map_eq_some_iff.mp found
      obtain ⟨rfl, rfl⟩ := Prod.mk.inj same
      cases literal
    next =>
      split at found
      next digit => exact denotes_number digit found literal
      next => cases found

end Literal

def Lexeme.IsRead (l : Lexeme) : Prop :=
  ∀ k ∈ LiteralKind.ofToken? l.kind, k.Denotes l.text (Value.read? k l.text)

namespace Lexeme

variable {l : Lexeme} {text : List Char}

lemma isRead_of_not_isLiteral (other : l.kind.isLiteral = false) : l.IsRead := by
  intro k hk
  cases kind : l.kind <;> simp_all [LiteralKind.ofToken?, TokenKind.isLiteral]

lemma isRead_of_rule {σ : Type} {rule : σ → Char → List Char → Cut σ} {s : σ} {n : Nat}
    (other : ∀ s c rest, (rule s c rest).kind.isLiteral = false) (h : l ∈ cut rule s n text) :
    l.IsRead :=
  isRead_of_not_isLiteral (kind_of_mem_cut (p := fun k => k.isLiteral = false) other h)

lemma isRead_pad (c : Char) : (pad c).IsRead := by
  refine isRead_of_not_isLiteral ?_
  rw [pad, padKind]
  split <;> rfl

lemma isRead_freeText {previous : Option Char} {n : Nat}
    (h : l ∈ cut freeText previous n text) : l.IsRead := by
  obtain ⟨previous, c, rest, rfl⟩ := exists_of_mem_cut h
  rw [freeText]
  split
  next => exact isRead_pad c
  next =>
    split
    next =>
      split
      next kind more found => exact fun k literal => Literal.denotes_scan found literal
      next => exact isRead_of_not_isLiteral rfl
    next => exact isRead_of_not_isLiteral rfl

lemma isRead_tableRow {s : Unit} {n : Nat} (h : l ∈ cut tableRow s n text) : l.IsRead := by
  refine isRead_of_rule (fun _ c rest => ?_) h
  rw [tableRow, padKind]
  split <;> split <;> rfl

lemma isRead_tagLine {signed : Bool} {n : Nat} (h : l ∈ cut tagLine signed n text) :
    l.IsRead := by
  refine isRead_of_rule (fun signed c rest => ?_) h
  rw [tagLine, padKind]
  split
  · split <;> rfl
  · split
    · rfl
    · split
      · rfl
      · split <;> rfl

lemma isRead_docLine {s : Unit} {n : Nat} (h : l ∈ cut docLine s n text) : l.IsRead := by
  refine isRead_of_rule (fun _ c rest => ?_) h
  rw [docLine, padKind]
  split <;> [split <;> rfl; rfl]

lemma isRead_keywordLine {m : Keyword.Match} (found : Keyword.at? text = some m)
    (h : l ∈ keywordLine m text) : l.IsRead := by
  have keyword := Keyword.isKeyword_of_at? found
  rcases List.mem_cons.mp h with rfl | h
  · refine isRead_of_not_isLiteral (show m.kind.isLiteral = false from ?_)
    cases kind : m.kind <;> first | rfl | rw [kind] at keyword; cases keyword
  · split at h
    · cases h
    · split at h
      · rcases List.mem_cons.mp h with rfl | h
        · exact isRead_of_not_isLiteral rfl
        · exact isRead_freeText h
      · split at h
        · obtain rfl := List.mem_singleton.mp h
          exact isRead_of_not_isLiteral rfl
        · exact isRead_freeText h

lemma isRead_plainLine (h : l ∈ plainLine text) : l.IsRead := by
  unfold plainLine at h
  split at h
  · cases h
  · obtain rfl := List.mem_singleton.mp h
    exact isRead_of_not_isLiteral rfl
  · exact isRead_tableRow h
  · exact isRead_tagLine h
  · split at h
    · rcases List.mem_cons.mp h with rfl | h
      · exact isRead_of_not_isLiteral rfl
      · exact isRead_docLine h
    · split at h
      next m found => exact isRead_keywordLine found h
      next => exact isRead_freeText h

lemma isRead_ofContent {within : Option Fence} (h : l ∈ ofContent within text) : l.IsRead := by
  rcases List.mem_append.mp h with h | h
  · obtain ⟨c, -, rfl⟩ := List.mem_map.mp h
    exact isRead_pad c
  · cases within with
    | none => exact isRead_plainLine h
    | some fence =>
      simp only [fencedLine] at h
      split at h
      · rcases List.mem_cons.mp h with rfl | h
        · exact isRead_of_not_isLiteral rfl
        · exact isRead_freeText h
      · exact isRead_docLine h

lemma isRead_ofLines {within : Option Fence} {ls : List Text.SourceLine}
    (h : l ∈ ofLines within ls) : l.IsRead := by
  induction ls generalizing within with
  | nil => cases h
  | cons line rest ih =>
    rcases List.mem_append.mp h with h | h
    · rcases List.mem_append.mp h with h | h
      · exact isRead_ofContent h
      · cases ending : line.ending with
        | nil => simp [ending, ofEnding] at h
        | cons c cs =>
          rw [ending, ofEnding.eq_2 _ (by simp), List.mem_singleton] at h
          subst h
          exact isRead_of_not_isLiteral rfl
    · exact ih h

end Lexeme

lemma Token.denotes_of_mem_tokens {text : List Char} {t : Token} {k : LiteralKind}
    (h : t ∈ (Stream.ofText text).tokens) (literal : LiteralKind.ofToken? t.kind = some k) :
    k.Denotes t.text (Value.read? k t.text) := by
  rw [Stream.tokens_ofText] at h
  rcases List.mem_append.mp h with h | h
  · obtain ⟨front, l, back, whole, rfl⟩ := exists_of_mem_place h
    have mem : l ∈ Lexeme.ofText (Text.stripMark text) := by
      rw [whole]
      exact List.mem_append_right front List.mem_cons_self
    exact Lexeme.isRead_ofLines mem k literal
  · obtain rfl := List.mem_singleton.mp h
    cases literal

namespace Tree

lemma leaves_subset_of_mem_nodes {t n : Tree} (h : n ∈ t.nodes) : n.leaves ⊆ t.leaves := by
  refine forall_nodes (P := fun n => n.leaves ⊆ t.leaves) (fun u inner v hv => ?_) t
    (List.Subset.refl _) n h
  cases u with
  | leaf => cases hv
  | node rule anchor recovered children =>
    rw [leaves_node, leavesOf_eq_flatMap] at inner
    exact fun w hw => inner (List.mem_flatMap.mpr ⟨v, hv, hw⟩)

lemma IsShaped.literal? {t : Tree} (shaped : t.IsShaped) (ofRule : t.ofRule .parameter) :
    ∃ u, t.ownTokens = [u] ∧ t.leaves = [u] ∧ u.kind.isLiteral := by
  obtain ⟨own, same, word⟩ := shaped
  obtain rfl : own = .parameter := Option.some.inj (same.symm.trans (of_decide_eq_true ofRule))
  obtain ⟨k, literal, one⟩ := Shape.eq_of_mem_token word
  cases t with
  | leaf => cases same
  | node rule anchor recovered children =>
    obtain ⟨u, rfl, kind⟩ := List.map_eq_singleton_iff.mp one
    cases u with
    | node => cases kind
    | leaf u =>
      obtain rfl := Part.token.inj kind
      exact ⟨u, rfl, by simp, literal⟩

end Tree

namespace Parsed

variable {options : Options} {text : List Char}

lemma mem_tokens_of_mem_leaves {n : Tree} (mem : n ∈ (parse options text).root.descendants)
    {t : Token} (h : t ∈ n.leaves) : t ∈ (parse options text).tokens := by
  refine (leaves_complete options text).1.subset ?_
  have below : n ∈ (parse options text).root.nodes := by
    rw [Tree.nodes_eq_cons_descendants rfl]
    exact List.mem_cons_of_mem _ mem
  exact Tree.leaves_subset_of_mem_nodes below h

/-- The token of a parameter has the form of a literal of its kind, and its value is what the form
denotes. -/
theorem parameters_denote (options : Options) (text : List Char) (v : View .parameter)
    (mem : v.tree ∈ (parse options text).root.descendants) :
    ∃ t kind, v.literal? = some t ∧ v.literalKind? = some kind ∧ kind.token = t.kind ∧
      kind.Denotes t.text v.value? := by
  have shaped := (isShaped options text).2 v.tree (List.mem_cons_of_mem _ mem)
  obtain ⟨t, only, leaves, literal⟩ := shaped.literal? v.ofRule
  have own : v.literal? = some t := by
    rw [View.literal?, only]
    rfl
  have leaf : t ∈ v.tree.leaves := by
    rw [leaves]
    exact List.mem_singleton_self t
  obtain ⟨kind, found, same⟩ : ∃ kind, LiteralKind.ofToken? t.kind = some kind ∧
      kind.token = t.kind := by
    cases same : t.kind <;> first | exact ⟨_, rfl, rfl⟩ | (rw [same] at literal; cases literal)
  refine ⟨t, kind, own, ?_, same, ?_⟩
  · rw [View.literalKind?, own, Option.bind_some, found]
  · rw [View.value?, own, Option.bind_some, found, Option.bind_some]
    exact Token.denotes_of_mem_tokens (mem_tokens_of_mem_leaves mem leaf) found

theorem parameters_denote_limits :
    let text := "Feature: 0007 9223372036854775808 '\"' 1.50\n".toList
    let vs := (parse ⟨true⟩ text).root.descendants.filterMap (View.cast? .parameter)
    vs.map View.value? = [some (.decimal 7), none, some (.string ['"']),
        some (.float (.finite false 6755399441055744 (-52)))] ∧
      ∀ v ∈ vs, v.tree ∈ (parse ⟨true⟩ text).root.descendants ∧
        ∃ t kind, v.literal? = some t ∧ v.literalKind? = some kind ∧ kind.token = t.kind ∧
          kind.Denotes t.text v.value? := by
  intro text vs
  refine ⟨by decide +kernel, fun v hv => ?_⟩
  have mem := View.tree_mem hv
  exact ⟨mem, parameters_denote ⟨true⟩ text v mem⟩

end Parsed

end FeatureFile
