import Mathlib.Data.List.Forall2
import Mathlib.Tactic.Lemma
import FeatureFile.Text.Blank

namespace List

variable {α β : Type} {R : α → β → Prop} {p : α → Bool} {q : β → Bool} {as : List α} {bs : List β}

lemma Forall₂.takeWhile (same : ∀ a b, R a b → p a = q b) (h : Forall₂ R as bs) :
    Forall₂ R (as.takeWhile p) (bs.takeWhile q) := by
  induction h with
  | nil => exact .nil
  | @cons a b as bs first _ ih =>
    cases here : p a with
    | false => simp [← same a b first, here]
    | true => simpa [← same a b first, here] using ⟨first, ih⟩

lemma Forall₂.dropWhile (same : ∀ a b, R a b → p a = q b) (h : Forall₂ R as bs) :
    Forall₂ R (as.dropWhile p) (bs.dropWhile q) := by
  induction h with
  | nil => exact .nil
  | @cons a b as bs first rest ih =>
    cases here : p a with
    | false => simpa [← same a b first, here] using ⟨first, rest⟩
    | true => simpa [← same a b first, here] using ih

lemma Forall₂.filter (same : ∀ a b, R a b → p a = q b) (h : Forall₂ R as bs) :
    Forall₂ R (as.filter p) (bs.filter q) :=
  rel_filter (fun a b here => iff_of_eq (congrArg (· = true) (same a b here))) h

lemma Forall₂.any_eq (same : ∀ a b, R a b → p a = q b) (h : Forall₂ R as bs) :
    as.any p = bs.any q := by
  induction h with
  | nil => rfl
  | cons first _ ih => rw [any_cons, any_cons, same _ _ first, ih]

lemma Forall₂.all_eq (same : ∀ a b, R a b → p a = q b) (h : Forall₂ R as bs) :
    as.all p = bs.all q := by
  induction h with
  | nil => rfl
  | cons first _ ih => rw [all_cons, all_cons, same _ _ first, ih]

lemma Forall₂.isEmpty_eq (h : Forall₂ R as bs) : as.isEmpty = bs.isEmpty := by
  cases h <;> rfl

lemma Forall₂.getLast? (h : Forall₂ R as bs) : Option.Rel R as.getLast? bs.getLast? := by
  induction h with
  | nil => exact .none
  | @cons a b as bs first rest ih =>
    cases rest with
    | nil => exact .some first
    | cons _ _ => simpa using ih

end List

lemma FeatureFile.Text.forall₂_dropEnd {α β : Type} {R : α → β → Prop} {p : α → Bool}
    {q : β → Bool} {as : List α} {bs : List β} (same : ∀ a b, R a b → p a = q b)
    (h : List.Forall₂ R as bs) : List.Forall₂ R (dropEnd p as) (dropEnd q bs) := by
  induction h with
  | nil => exact .nil
  | cons first _ ih =>
    rw [dropEnd, dropEnd]
    generalize dropEnd p _ = kept at ih
    generalize dropEnd q _ = kept' at ih
    cases ih with
    | nil =>
      dsimp only
      rw [same _ _ first]
      split
      · exact .nil
      · exact .cons first .nil
    | cons next rest => exact .cons first (.cons next rest)

namespace Option.Rel

variable {α β : Type} {R : α → β → Prop} {a : Option α} {b : Option β}

lemma forall₂_toList (h : Option.Rel R a b) : List.Forall₂ R a.toList b.toList := by
  cases h with
  | some here => exact .cons here .nil
  | none => exact .nil

lemma isSome_eq (h : Option.Rel R a b) : a.isSome = b.isSome := by
  cases h <;> rfl

lemma isNone_eq (h : Option.Rel R a b) : a.isNone = b.isNone := by
  cases h <;> rfl

end Option.Rel
