import Mathlib.Tactic.Lemma
import FeatureFile.Text.Blank
import FeatureFile.Token.Basic

namespace FeatureFile

structure Keeps (kept all : List Token) : Prop where
  sublist : kept.Sublist all
  significant : kept.filter (!·.kind.isTrivia) = all.filter (!·.kind.isTrivia)

namespace Keeps

variable {kept all kept' all' ts : List Token} {t : Token}

lemma refl (ts : List Token) : Keeps ts ts :=
  ⟨List.Sublist.refl _, rfl⟩

lemma trans {mid : List Token} (h : Keeps kept mid) (h' : Keeps mid all) : Keeps kept all :=
  ⟨h.sublist.trans h'.sublist, h.significant.trans h'.significant⟩

lemma append (h : Keeps kept all) (h' : Keeps kept' all') : Keeps (kept ++ kept') (all ++ all') :=
  ⟨h.sublist.append h'.sublist, by rw [List.filter_append, List.filter_append, h.significant,
    h'.significant]⟩

lemma cons (t : Token) (h : Keeps kept all) : Keeps (t :: kept) (t :: all) :=
  (refl [t]).append h

lemma drop (h : ∀ t ∈ ts, t.kind.isTrivia) : Keeps [] ts :=
  ⟨List.nil_sublist _, (List.filter_eq_nil_iff.mpr (by simpa using h)).symm⟩

lemma skip (ht : t.kind.isTrivia) (h : Keeps kept all) : Keeps kept (t :: all) :=
  have gone : Keeps [] [t] := drop (by simpa using ht)
  gone.append h

lemma flatMap {α : Type} {f g : α → List Token} {as : List α} (h : ∀ a ∈ as, Keeps (f a) (g a)) :
    Keeps (as.flatMap f) (as.flatMap g) := by
  induction as with
  | nil => exact refl []
  | cons a as ih =>
    obtain ⟨first, rest⟩ := List.forall_mem_cons.mp h
    exact first.append (ih rest)

lemma filter {p : Token → Bool} (h : ∀ t ∈ ts, p t = false → t.kind.isTrivia) :
    Keeps (ts.filter p) ts := by
  induction ts with
  | nil => exact refl []
  | cons t ts ih =>
    obtain ⟨first, rest⟩ := List.forall_mem_cons.mp h
    cases hp : p t with
    | true => simpa [hp] using (ih rest).cons t
    | false => simpa [hp] using (ih rest).skip (first hp)

lemma dropWhile {p : Token → Bool} (h : ∀ t ∈ ts, p t → t.kind.isTrivia) :
    Keeps (ts.dropWhile p) ts := by
  induction ts with
  | nil => exact refl []
  | cons t ts ih =>
    obtain ⟨first, rest⟩ := List.forall_mem_cons.mp h
    by_cases hp : p t
    · simpa [hp] using (ih rest).skip (first hp)
    · simpa [hp] using refl (t :: ts)

lemma dropEnd {p : Token → Bool} (h : ∀ t ∈ ts, p t → t.kind.isTrivia) :
    Keeps (Text.dropEnd p ts) ts := by
  induction ts with
  | nil => exact refl []
  | cons t ts ih =>
    obtain ⟨first, rest⟩ := List.forall_mem_cons.mp h
    have shorter := ih rest
    rw [Text.dropEnd]
    split
    case h_2 kept _ => exact shorter.cons t
    case h_1 none =>
      rw [none] at shorter
      split
      case isTrue hp => exact shorter.skip (first hp)
      case isFalse => exact shorter.cons t

lemma mem (h : Keeps kept all) (ht : t ∈ all) (content : t.kind.isTrivia = false) : t ∈ kept := by
  have mem : t ∈ all.filter (!·.kind.isTrivia) := List.mem_filter.mpr ⟨ht, by simp [content]⟩
  rw [← h.significant] at mem
  exact (List.mem_filter.mp mem).1

lemma filter_eq {p : Token → Bool} (h : Keeps kept all)
    (content : ∀ t, p t → t.kind.isTrivia = false) : kept.filter p = all.filter p := by
  have drop (ts : List Token) : (ts.filter (!·.kind.isTrivia)).filter p = ts.filter p := by
    rw [List.filter_filter]
    refine List.filter_congr fun t _ => ?_
    cases here : p t with
    | false => rfl
    | true => simp [content t here]
  rw [← drop kept, ← drop all, h.significant]

end Keeps

lemma TokenKind.isTrivia_of_isPad {k : TokenKind} (h : k.isPad) : k.isTrivia := by
  cases k <;> first | rfl | cases h

end FeatureFile
