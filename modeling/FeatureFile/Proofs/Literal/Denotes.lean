import Mathlib.Data.Nat.Digits.Defs
import Mathlib.Tactic.Ring
import Mathlib.Tactic.Lemma
import FeatureFile.Literal.Value

namespace FeatureFile

namespace Number

def digitValue (c : Char) : Nat :=
  c.toNat - '0'.toNat

def denoted (digits : List Char) : Nat :=
  Nat.ofDigits 10 (digits.reverse.map digitValue)

lemma denoted_cons (c : Char) (rest : List Char) :
    denoted (c :: rest) = digitValue c * 10 ^ rest.length + denoted rest := by
  rw [denoted, List.reverse_cons, List.map_append, Nat.ofDigits_append, List.length_map,
    List.length_reverse, List.map_singleton, Nat.ofDigits_singleton, denoted]
  ring

variable {digits : List Char}

lemma digits?_eq_some (all : ∀ c ∈ digits, c.isDigit) (value : Nat) :
    digits? value digits = some (value * 10 ^ digits.length + denoted digits) := by
  induction digits generalizing value with
  | nil => simp [digits?, denoted]
  | cons c rest ih =>
    obtain ⟨first, others⟩ := List.forall_mem_cons.mp all
    have one : digit? c = some (digitValue c) := if_pos first
    simp only [digits?, one, ih others, denoted_cons, List.length_cons]
    congr 1
    ring

lemma splitSign_of_isDigit {c : Char} (digit : c.isDigit) (rest : List Char) :
    splitSign (c :: rest) = (false, c :: rest) := by
  rw [splitSign.eq_3]
  · rintro _ ⟨⟩
    cases digit
  · rintro _ ⟨⟩
    cases digit

lemma int64?_eq (nonempty : digits ≠ []) (all : ∀ c ∈ digits, c.isDigit) :
    int64? digits =
      if denoted digits ≤ 2 ^ 63 - 1 then some (denoted digits : Int) else none := by
  obtain ⟨c, rest, rfl⟩ := List.exists_cons_of_ne_nil nonempty
  have number : integer? (c :: rest) = some (denoted (c :: rest) : Int) := by
    rw [integer?, splitSign_of_isDigit (all c List.mem_cons_self), natural?, if_neg (by simp),
      digits?_eq_some all, Nat.zero_mul, Nat.zero_add]
    rfl
  have fits : fits64 (denoted (c :: rest)) = decide (denoted (c :: rest) ≤ 2 ^ 63 - 1) := by
    rw [fits64, greatest64, ← Bool.decide_and]
    exact decide_eq_decide.mpr (by omega)
  rw [int64?, number, Option.filter_some, fits]
  simp only [decide_eq_true_eq]

end Number

namespace Number.Double

variable {whole part : List Char}

lemma lower_cons_of_isDigit {c : Char} (digit : c.isDigit) (rest : List Char) :
    lower (c :: rest) = c :: lower rest := by
  have low : ¬ c.val ≥ 'A'.val := by
    simp only [Char.isDigit, Bool.and_eq_true, decide_eq_true_eq, ge_iff_le,
      UInt32.le_iff_toNat_le, Char.reduceVal, UInt32.reduceToNat] at digit ⊢
    omega
  have same : c.toLower = c := dif_neg fun upper => low upper.1
  rw [lower, List.map_cons, same, lower]

lemma splitDigits_append (all : ∀ c ∈ whole, c.isDigit) {rest : List Char}
    (stop : ∀ c ∈ rest.head?, c.isDigit = false) : splitDigits (whole ++ rest) = (whole, rest) := by
  rw [splitDigits, List.takeWhile_append_of_pos all, List.dropWhile_append_of_pos all]
  cases rest with
  | nil => simp
  | cons c rest => simp [stop c rfl]

lemma decimal?_eq_some (nonempty : whole ≠ []) (left : ∀ c ∈ whole, c.isDigit)
    (right : ∀ c ∈ part, c.isDigit) : decimal? (whole ++ '.' :: part) = some ⟨whole, part, 0⟩ := by
  have front : splitDigits (whole ++ '.' :: part) = (whole, '.' :: part) :=
    splitDigits_append left (by simp)
  have back : splitDigits (part ++ []) = (part, []) := splitDigits_append right (by simp)
  rw [List.append_nil] at back
  simp [decimal?, front, splitFraction, back, nonempty, exponent?]

lemma ofDigits_eq (left : ∀ c ∈ whole, c.isDigit) (right : ∀ c ∈ part, c.isDigit) :
    ofDigits false ⟨whole, part, 0⟩ =
      ofDecimal false (denoted (whole ++ part)) (-part.length) := by
  rw [ofDigits, digits?_eq_some (List.forall_mem_append.mpr ⟨left, right⟩), Nat.zero_mul,
    Nat.zero_add, Option.getD_some, zero_sub]

lemma lower_ne_of_isDigit {c d : Char} (digit : c.isDigit) (letter : d.isDigit = false)
    (rest name : List Char) : lower (c :: rest) ≠ d :: name := by
  rw [lower_cons_of_isDigit digit]
  intro same
  exact absurd digit (Bool.eq_false_iff.mp ((List.cons.inj same).1 ▸ letter))

lemma read?_eq_some (nonempty : whole ≠ []) (left : ∀ c ∈ whole, c.isDigit)
    (right : ∀ c ∈ part, c.isDigit) :
    read? (whole ++ '.' :: part) =
      some (ofDecimal false (denoted (whole ++ part)) (-part.length)) := by
  rw [← ofDigits_eq left right]
  obtain ⟨c, rest, rfl⟩ := List.exists_cons_of_ne_nil nonempty
  have first := left c List.mem_cons_self
  have number : lower (c :: (rest ++ '.' :: part)) ≠ "nan".toList :=
    lower_ne_of_isDigit first (by decide) _ ['a', 'n']
  have infinity : lower (c :: (rest ++ '.' :: part)) ∉ ["inf".toList, "infinity".toList] := by
    rw [List.mem_cons, List.mem_singleton]
    exact not_or.mpr ⟨lower_ne_of_isDigit first (by decide) _ ['n', 'f'],
      lower_ne_of_isDigit first (by decide) _ ['n', 'f', 'i', 'n', 'i', 't', 'y']⟩
  rw [List.cons_append, read?, splitSign_of_isDigit first]
  dsimp only
  rw [if_neg number, if_neg infinity, ← List.cons_append, decimal?_eq_some nonempty left right,
    Option.map_some]

end Number.Double

namespace Value

lemma closed?_append (quote : Char) (inner : List Char) :
    closed? quote (inner ++ [quote]) = some inner := by
  induction inner with
  | nil => simp [closed?]
  | cons c inner ih =>
    rw [List.cons_append, closed?.eq_3 _ _ _ (by simp), ih]
    rfl

end Value

/-- The forms of literals, and the value that stands behind each. A decimal that does not fit into 64
bits has none. -/
inductive LiteralKind.Denotes : LiteralKind → List Char → Option Value → Prop
  | string {quote : Char} {inner : List Char} :
      Literal.isQuote quote → (∀ c ∈ inner, c ≠ quote ∧ Text.isBreak c = false) →
        Denotes .string (quote :: (inner ++ [quote])) (some (.string inner))
  | decimal {digits : List Char} :
      digits ≠ [] → (∀ c ∈ digits, c.isDigit) →
        Denotes .decimal digits
          (if Number.denoted digits ≤ 2 ^ 63 - 1 then some (.decimal (Number.denoted digits))
            else none)
  | float {whole part : List Char} :
      whole ≠ [] → (∀ c ∈ whole, c.isDigit) → part ≠ [] → (∀ c ∈ part, c.isDigit) →
        Denotes .float (whole ++ '.' :: part)
          (some (.float
            (.ofDecimal false (Number.denoted (whole ++ part)) (-part.length))))

end FeatureFile
