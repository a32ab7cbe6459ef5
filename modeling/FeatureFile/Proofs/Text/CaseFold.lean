import Mathlib.Data.List.Forall2
import Mathlib.Data.List.Sort
import Mathlib.Data.List.TakeWhile
import FeatureFile.Proofs.Text.Lines
import FeatureFile.Text.Alphanumeric
import FeatureFile.Text.FoldCase
import FeatureFile.Text.Utf8

/-!
Characters that are equal up to letter case. All that have a case are letters or numbers, so they agree
on that, and whatever has a meaning of its own in a feature file has no case.
-/

namespace FeatureFile.Text

def SameFold (text text' : List Char) : Prop :=
  List.Forall₂ (fun c d => foldCase c = foldCase d) text text'

lemma SameFold.map_eq {text text' : List Char} (h : SameFold text text') :
    text.map foldCase = text'.map foldCase := by
  induction h with
  | nil => rfl
  | cons first _ ih => rw [List.map_cons, List.map_cons, first, ih]

def within : List (Nat × Nat) → List (Nat × Nat) → Bool
  | spans, [] => spans.isEmpty
  | spans, (low, high) :: ranges =>
    within (spans.dropWhile fun s => Nat.ble low s.1 && Nat.ble s.2 high) ranges

lemma exists_of_within {spans ranges : List (Nat × Nat)} (h : within spans ranges) :
    ∀ s ∈ spans, ∃ r ∈ ranges, r.1 ≤ s.1 ∧ s.2 ≤ r.2 := by
  induction ranges generalizing spans with
  | nil =>
    obtain rfl := List.isEmpty_iff.mp h
    simp
  | cons r ranges ih =>
    intro s hs
    let inside : Nat × Nat → Bool := fun s => Nat.ble r.1 s.1 && Nat.ble s.2 r.2
    rw [← List.takeWhile_append_dropWhile (p := inside) (l := spans)] at hs
    rcases List.mem_append.mp hs with here | later
    · have bounds := List.mem_takeWhile_imp here
      rw [Bool.and_eq_true, Nat.ble_eq, Nat.ble_eq] at bounds
      exact ⟨r, List.mem_cons_self, bounds⟩
    · obtain ⟨r', mem, inside⟩ := ih h s later
      exact ⟨r', List.mem_cons_of_mem _ mem, inside⟩

lemma exists_of_covers {ranges : List (Nat × Nat)} {n : Nat} (h : covers ranges n) :
    ∃ r ∈ ranges, r.1 ≤ n ∧ n ≤ r.2 := by
  induction ranges with
  | nil => cases h
  | cons r ranges ih =>
    rw [covers] at h
    split at h
    case isTrue => cases h
    case isFalse above =>
      rcases Bool.or_eq_true_iff.mp h with inside | later
      · exact ⟨r, List.mem_cons_self, Nat.le_of_not_lt above, of_decide_eq_true inside⟩
      · obtain ⟨r', mem, inside⟩ := ih later
        exact ⟨r', List.mem_cons_of_mem _ mem, inside⟩

lemma covers_of_mem {ranges : List (Nat × Nat)} {n : Nat} {r : Nat × Nat}
    (ascend : ranges.Pairwise fun a b => a.1 ≤ b.1) (mem : r ∈ ranges) (low : r.1 ≤ n) (high : n ≤ r.2) :
    covers ranges n := by
  induction ranges with
  | nil => cases mem
  | cons s ranges ih =>
    obtain ⟨first, others⟩ := List.pairwise_cons.mp ascend
    rw [covers]
    rcases List.mem_cons.mp mem with rfl | mem
    · rw [if_neg (Nat.not_lt.mpr low), decide_eq_true high, Bool.true_or]
    · have start := Nat.le_trans (first r mem) low
      rw [if_neg (Nat.not_lt.mpr start), ih others mem, Bool.or_true]

namespace CaseRun

def sources (r : CaseRun) : List (Nat × Nat) :=
  (List.range ((r.last - r.first) / r.step + 1)).map fun k =>
    (r.first + k * r.step, r.first + k * r.step)

def targets (r : CaseRun) : Nat × Nat :=
  (r.target, r.target + (r.last - r.first))

end CaseRun

lemma foldCode_cases (runs : List CaseRun) (n : Nat) :
    foldCode runs n = n ∨ ∃ r ∈ runs, (n, n) ∈ r.sources ∧ r.first ≤ n ∧ n ≤ r.last ∧
      foldCode runs n = r.target + (n - r.first) := by
  induction runs with
  | nil => exact .inl rfl
  | cons r runs ih =>
    rw [foldCode]
    split
    case isTrue => exact .inl rfl
    case isFalse above =>
      have first := Nat.le_of_not_lt above
      split
      case isTrue here =>
        obtain ⟨last, step⟩ := here
        refine .inr ⟨r, List.mem_cons_self, ?_, first, last, rfl⟩
        refine List.mem_map.mpr ⟨(n - r.first) / r.step, List.mem_range.mpr ?_, ?_⟩
        · exact Nat.lt_succ_of_le (Nat.div_le_div_right (Nat.sub_le_sub_right last _))
        · rw [Nat.div_mul_cancel (Nat.dvd_of_mod_eq_zero step), Nat.add_sub_cancel' first]
      case isFalse =>
        rcases ih with same | ⟨r', mem, rest⟩
        · exact .inl same
        · exact .inr ⟨r', List.mem_cons_of_mem _ mem, rest⟩

lemma targets_valid : ∀ r ∈ caseRuns,
    r.targets.2 < 0xD800 ∨ 0xDFFF < r.targets.1 ∧ r.targets.2 < 0x110000 := by
  decide +kernel

lemma toNat_foldCase (c : Char) : (foldCase c).toNat = foldCode caseRuns c.toNat := by
  have valid : (foldCode caseRuns c.toNat).isValidChar := by
    rcases foldCode_cases caseRuns c.toNat with same | ⟨r, mem, -, first, last, target⟩
    · rw [same]
      exact c.valid
    · have bounds := targets_valid r mem
      simp only [CaseRun.targets] at bounds
      rw [target, Nat.isValidChar]
      omega
  rw [foldCase, Char.ofNat, dif_pos valid]
  rfl

lemma ascending_alphanumericRanges :
    alphanumericRanges.Pairwise fun a b => a.1 ≤ b.1 := by
  have chain : alphanumericRanges.IsChain fun a b => a.1 ≤ b.1 := by decide +kernel
  exact chain.pairwise

lemma within_sources : within (caseRuns.flatMap CaseRun.sources) alphanumericRanges := by
  decide +kernel

lemma within_targets :
    within ((caseRuns.map CaseRun.targets).insertionSort fun a b => Nat.ble a.1 b.1)
      alphanumericRanges := by
  decide +kernel

lemma covers_of_within {spans : List (Nat × Nat)} (all : within spans alphanumericRanges)
    {s : Nat × Nat} (mem : s ∈ spans) {n : Nat} (low : s.1 ≤ n) (high : n ≤ s.2) :
    covers alphanumericRanges n := by
  obtain ⟨r, range, start, stop⟩ := exists_of_within all s mem
  exact covers_of_mem ascending_alphanumericRanges range (Nat.le_trans start low)
    (Nat.le_trans high stop)

lemma isAlphanumeric_foldCase (c : Char) : isAlphanumeric (foldCase c) = isAlphanumeric c := by
  rw [isAlphanumeric, isAlphanumeric, toNat_foldCase]
  rcases foldCode_cases caseRuns c.toNat with same | ⟨r, mem, source, first, last, target⟩
  · rw [same]
  · have front := covers_of_within within_sources (List.mem_flatMap.mpr ⟨r, mem, source⟩)
      (Nat.le_refl _) (Nat.le_refl _)
    have span : r.targets ∈ (caseRuns.map CaseRun.targets).insertionSort fun a b => Nat.ble a.1 b.1 :=
      (List.mem_insertionSort _).mpr (List.mem_map_of_mem mem)
    have back : covers alphanumericRanges (r.target + (c.toNat - r.first)) :=
      covers_of_within within_targets span (Nat.le_add_right _ _)
        (Nat.add_le_add_left (Nat.sub_le_sub_right last _) _)
    rw [target, front, back]

def caselessRanges : List (Nat × Nat) :=
  [(0, 0x40), (0x5B, 0x60), (0x7B, 0xA0), (0x1680, 0x1680), (0x2000, 0x200A), (0x2028, 0x2029),
   (0x202F, 0x202F), (0x205F, 0x205F), (0x3000, 0x3000), (0xFEFF, 0xFEFF)]

def isCaseless (c : Char) : Bool :=
  covers caselessRanges c.toNat

lemma apart_of_mem_caseRuns : ∀ r ∈ caseRuns, ∀ i ∈ caselessRanges,
    (r.last < i.1 ∨ i.2 < r.first) ∧ (r.targets.2 < i.1 ∨ i.2 < r.targets.1) := by
  decide +kernel

lemma eq_of_isCaseless {c d : Char} (caseless : isCaseless c) (same : foldCase c = foldCase d) :
    c = d := by
  obtain ⟨i, range, low, high⟩ := exists_of_covers caseless
  have folded := congrArg Char.toNat same
  rw [toNat_foldCase, toNat_foldCase] at folded
  have own : foldCode caseRuns c.toNat = c.toNat := by
    rcases foldCode_cases caseRuns c.toNat with stays | ⟨r, mem, -, first, last, -⟩
    · exact stays
    · have apart := (apart_of_mem_caseRuns r mem i range).1
      omega
  rw [own] at folded
  rcases foldCode_cases caseRuns d.toNat with stays | ⟨r, mem, -, first, last, target⟩
  · exact Char.toNat_inj.mp (folded.trans stays)
  · have apart := (apart_of_mem_caseRuns r mem i range).2
    simp only [CaseRun.targets] at apart
    omega

variable {c d : Char}

lemma test_eq {f : Char → Bool} (only : ∀ c, f c → isCaseless c) (same : foldCase c = foldCase d) :
    f c = f d := by
  cases here : f c with
  | true => rw [← eq_of_isCaseless (only c here) same, here]
  | false =>
    rw [eq_comm, Bool.eq_false_iff]
    intro there
    rw [eq_of_isCaseless (only d there) same.symm, here] at there
    cases there

lemma eq_iff_of_isCaseless {x : Char} (caseless : isCaseless x) (same : foldCase c = foldCase d) :
    c = x ↔ d = x := by
  constructor
  · rintro rfl
    exact (eq_of_isCaseless caseless same).symm
  · rintro rfl
    exact (eq_of_isCaseless caseless same.symm).symm

lemma isAlphanumeric_eq (same : foldCase c = foldCase d) : isAlphanumeric c = isAlphanumeric d := by
  rw [← isAlphanumeric_foldCase c, same, isAlphanumeric_foldCase]

lemma isPad_eq (same : foldCase c = foldCase d) : isPad c = isPad d := by
  refine test_eq (fun c pad => ?_) same
  rcases isPad_iff.mp pad with rfl | rfl <;> rfl

lemma isCaseless_of_isBreak (ends : isBreak c) : isCaseless c := by
  rcases Bool.or_eq_true_iff.mp ends with here | here <;>
    · rw [of_decide_eq_true here]
      rfl

lemma isBreak_eq (same : foldCase c = foldCase d) : isBreak c = isBreak d :=
  test_eq (fun _ => isCaseless_of_isBreak) same

lemma isBlank_eq (same : foldCase c = foldCase d) : isBlank c = isBlank d := by
  refine test_eq (fun c blank => ?_) same
  obtain ⟨r, range, low, high⟩ := exists_of_covers blank
  have all : within blankRanges caselessRanges := by decide
  obtain ⟨i, mem, start, stop⟩ := exists_of_within all r range
  exact covers_of_mem (by decide) mem (Nat.le_trans start low) (Nat.le_trans high stop)

lemma isDigit_eq (same : foldCase c = foldCase d) : c.isDigit = d.isDigit := by
  refine test_eq (f := Char.isDigit) (fun c digit => ?_) same
  have high : c.val ≤ '9'.val := of_decide_eq_true (Bool.and_eq_true_iff.mp digit).2
  exact covers_of_mem (r := (0, 0x40)) (by decide) List.mem_cons_self (Nat.zero_le _)
    (Nat.le_trans (UInt32.le_iff_toNat_le.mp high) (by decide))

end FeatureFile.Text
