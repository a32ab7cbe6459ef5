import FeatureFile.Proofs.Alike.Document
import FeatureFile.Proofs.Document.Flat

namespace FeatureFile.Opening

variable {L : Likeness} {ls ms : List RawLine}

lemma skipJunk_cons_of_goes {l : RawLine} {rest : List RawLine}
    (goes : ∀ found ∈ l.significant?, endsJunk (kindBehindTags (l :: rest)) = false) :
    skipJunk (l :: rest) = (l.significant?.toList ++ (skipJunk rest).1, (skipJunk rest).2) := by
  rw [skipJunk]
  cases here : l.significant? with
  | none => rfl
  | some found => exact if_neg (by simp [goes found here])

lemma goes_of_kind {l : RawLine} {found : Line} (rest : List RawLine)
    (here : l.significant? = some found) (body : found.kind = .text ∨ found.kind = .fence) :
    ∀ found ∈ l.significant?, endsJunk (kindBehindTags (l :: rest)) = false := by
  intro _ _
  rw [kindBehindTags_cons_some rest here]
  rcases body with kind | kind <;> rw [kind] <;> rfl

lemma goes_of_fenced {l : RawLine} (rest : List RawLine) (shape : Lexeme.FencedShape l.shape) :
    ∀ found ∈ l.significant?, endsJunk (kindBehindTags (l :: rest)) = false :=
  fun found here =>
    goes_of_kind rest here (RawLine.kind_of_significant? shape here) found here

lemma kindBehindTags_append (front : List RawLine) (same : kindBehindTags ls = kindBehindTags ms) :
    kindBehindTags (front ++ ls) = kindBehindTags (front ++ ms) := by
  induction front with
  | nil => exact same
  | cons l rest ih =>
    cases here : l.significant? with
    | none =>
      rw [List.cons_append, List.cons_append, kindBehindTags_cons_none _ here,
        kindBehindTags_cons_none _ here, ih]
    | some found =>
      rw [List.cons_append, List.cons_append, kindBehindTags_cons_some _ here,
        kindBehindTags_cons_some _ here, ih]

variable {front : List RawLine}

structure SkipsAlike (L : Likeness) (ls ms : List RawLine) : Prop where
  junk : List.Forall₂ (Line.Alike L) (skipJunk ls).1 (skipJunk ms).1
  below : List.Forall₂ (Item.Alike L) (Item.ofLines none (skipJunk ls).2)
    (Item.ofLines none (skipJunk ms).2)

lemma SkipsAlike.cons {l : RawLine} (line : l.Alike L l) (h : SkipsAlike L ls ms)
    (same : kindBehindTags (l :: ls) = kindBehindTags (l :: ms))
    (goes : ∀ found ∈ l.significant?, endsJunk (kindBehindTags (l :: ls)) = false) :
    SkipsAlike L (l :: ls) (l :: ms) := by
  have left := skipJunk_cons_of_goes goes
  have right := skipJunk_cons_of_goes (same ▸ goes)
  refine ⟨?_, ?_⟩
  · rw [left, right]
    exact List.rel_append line.significant?.forall₂_toList h.junk
  · rw [left, right]
    exact h.below

lemma ReadAlike.skips_append (h : ReadAlike L ls ms) (opened : Option (Line × List Token))
    (scanned : Scanned opened.isSome front)
    (closed : ∀ b, .block b ∈ Item.ofLines opened front → b.closing ≠ none)
    (same : List.Forall₂ (RawLine.Alike L) front front) :
    SkipsAlike L (front ++ ls) (front ++ ms) := by
  fun_induction Item.ofLines opened front with
  | case1 => exact ⟨h.junk, h.below⟩
  | case2 opening content => exact absurd rfl (closed _ List.mem_cons_self)
  | case3 l rest blank ih =>
    obtain _ | ⟨line, others⟩ := same
    have below := ih (scanned.rest_of_stays (RawLine.turns_of_significant?_none blank)) closed
      others
    exact below.cons line (kindBehindTags_append (l :: rest) h.kind) (by simp [blank])
  | case4 l rest found here fence ih =>
    obtain _ | ⟨line, others⟩ := same
    have below := ih (scanned.rest_of_turns ((scanned.turns_iff here).mpr fence)) closed others
    exact below.cons line (kindBehindTags_append (l :: rest) h.kind)
      (goes_of_kind _ here (.inr fence))
  | case5 l rest found here other ih =>
    have kind := kindBehindTags_append (l :: rest) h.kind
    by_cases ends : endsJunk (kindBehindTags (l :: rest ++ ls))
    · have stop (more : List RawLine) (ends : endsJunk (kindBehindTags (l :: (rest ++ more)))) :
          skipJunk (l :: rest ++ more) = ([], l :: rest ++ more) := by
        rw [List.cons_append, skipJunk, here]
        exact if_pos ends
      rw [← Item.ofLines_cons_line rest here other] at closed
      refine ⟨?_, ?_⟩
      · rw [stop ls ends, stop ms (kind ▸ ends)]
        exact .nil
      · rw [stop ls ends, stop ms (kind ▸ ends), Item.ofLines_append none closed,
          Item.ofLines_append none closed]
        exact List.rel_append (Item.alike_ofLines .none same) h.items
    · obtain _ | ⟨line, others⟩ := same
      have below := ih (scanned.rest_of_stays (scanned.stays here other))
        (fun b hb => closed b (List.mem_cons_of_mem _ hb)) others
      exact below.cons line kind fun _ _ => Bool.eq_false_iff.mpr ends
  | case6 opening content l rest inner ih =>
    obtain _ | ⟨line, others⟩ := same
    have below := ih (scanned.rest_of_stays (RawLine.turns_of_closing?_none inner)) closed others
    exact below.cons line (kindBehindTags_append (l :: rest) h.kind)
      (goes_of_fenced _ scanned.shape)
  | case7 opening content l rest indent fence more here ih =>
    obtain _ | ⟨line, others⟩ := same
    have below := ih (scanned.rest_of_turns (RawLine.turns_of_closing? here))
      (fun b hb => closed b (List.mem_cons_of_mem _ (List.mem_append_right _ hb))) others
    exact below.cons line (kindBehindTags_append (l :: rest) h.kind)
      (goes_of_fenced _ scanned.shape)

lemma ReadAlike.append (h : ReadAlike L ls ms) (scanned : Scanned false front)
    (closed : ∀ b, .block b ∈ Item.ofLines none front → b.closing ≠ none)
    (same : List.Forall₂ (RawLine.Alike L) front front) :
    ReadAlike L (front ++ ls) (front ++ ms) := by
  have skips := h.skips_append none scanned closed same
  have first : Option.Rel (Line.Alike L) ((front ++ ls).findSome? RawLine.significant?)
      ((front ++ ms).findSome? RawLine.significant?) := by
    have own := (readAlike_of_alike same).first
    rw [List.findSome?_append, List.findSome?_append]
    generalize front.findSome? RawLine.significant? = a at own
    cases own with
    | none => exact h.first
    | some here => exact .some here
  refine ⟨kindBehindTags_append front h.kind, first, skips.junk, skips.below, ?_⟩
  rw [Item.ofLines_append none closed, Item.ofLines_append none closed]
  exact List.rel_append (Item.alike_ofLines .none same) h.items

lemma ReadAlike.congr {m m' : RawLine} (same : m.significant? = m'.significant?)
    (h : ReadAlike L ls (m :: ms)) : ReadAlike L ls (m' :: ms) := by
  have kind : kindBehindTags (m :: ms) = kindBehindTags (m' :: ms) := by
    rw [kindBehindTags, same, ← kindBehindTags]
  have items : Item.ofLines none (m :: ms) = Item.ofLines none (m' :: ms) := by
    rw [Item.ofLines, same, ← Item.ofLines]
  have skipped : (skipJunk (m :: ms)).1 = (skipJunk (m' :: ms)).1 ∧
      Item.ofLines none (skipJunk (m :: ms)).2 = Item.ofLines none (skipJunk (m' :: ms)).2 := by
    rw [skipJunk, skipJunk, ← kind, same]
    cases m'.significant? with
    | none => exact ⟨rfl, rfl⟩
    | some found =>
      dsimp only
      split
      · exact ⟨rfl, items⟩
      · exact ⟨rfl, rfl⟩
  refine ⟨kind ▸ h.kind, ?_, skipped.1 ▸ h.junk, skipped.2 ▸ h.below, items ▸ h.items⟩
  have first := h.first
  rwa [List.findSome?_cons, same, ← List.findSome?_cons] at first

lemma ReadAlike.ofTokens_cons {t : Token} {ts : List Token} (trivia : t.kind.isTrivia)
    (h : ReadAlike L ls (RawLine.ofTokens ts)) : ReadAlike L ls (RawLine.ofTokens (t :: ts)) := by
  rw [RawLine.ofTokens]
  split
  · exact h.blank rfl
  · cases lines : RawLine.ofTokens ts with
    | nil =>
      rw [lines] at h
      exact h.blank (by simp [RawLine.significant?, trivia])
    | cons m rest =>
      rw [lines] at h
      exact h.congr (by simp [RawLine.significant?, trivia])

lemma ReadAlike.ofTokens_append {added ts : List Token} (trivia : ∀ t ∈ added, t.kind.isTrivia)
    (h : ReadAlike L ls (RawLine.ofTokens ts)) :
    ReadAlike L ls (RawLine.ofTokens (added ++ ts)) := by
  induction added with
  | nil => exact h
  | cons t added ih =>
    obtain ⟨first, rest⟩ := List.forall_mem_cons.mp trivia
    exact (ih rest).ofTokens_cons first

end FeatureFile.Opening
