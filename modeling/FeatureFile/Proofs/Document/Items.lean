import FeatureFile.Proofs.Document.Partition
import FeatureFile.Proofs.Document.Scanned
import FeatureFile.Proofs.Token.Keeps

namespace FeatureFile

lemma RawLine.IsClosed.keeps {l : RawLine} (h : l.IsClosed) : Keeps l.content l.tokens := by
  have ending : Keeps [] l.ending.toList := by
    refine .drop fun t ht => ?_
    simp [h.ending t (by simpa using ht), TokenKind.isTrivia]
  simpa [RawLine.tokens] using (Keeps.refl l.content).append ending

namespace Line

def IsClosed (l : Line) : Prop :=
  ∀ t ∈ l.ending, t.kind = .eol

lemma IsClosed.keeps {l : Line} (h : l.IsClosed) : Keeps (l.head :: l.tail) l.tokens := by
  have ending : Keeps [] l.ending.toList := by
    refine .drop fun t ht => ?_
    simp [h t (by simpa using ht), TokenKind.isTrivia]
  simpa [Line.tokens] using (Keeps.refl (l.head :: l.tail)).append ending

lemma ending_of_significant? {l : RawLine} {found : Line} (h : l.significant? = some found) :
    found.ending = l.ending := by
  rw [RawLine.significant?] at h
  split at h
  · cases h
  · rw [← Option.some.inj h]

lemma dropWhile_of_significant? {l : RawLine} {found : Line} (h : l.significant? = some found) :
    l.content.dropWhile (·.kind.isTrivia) = found.head :: found.tail := by
  rw [RawLine.significant?] at h
  split at h
  case h_1 => cases h
  case h_2 heq => rw [← Option.some.inj h, heq]

lemma keeps_of_significant? {l : RawLine} {found : Line} (h : l.significant? = some found) :
    Keeps found.tokens l.tokens := by
  have kept : Keeps (l.content.dropWhile (·.kind.isTrivia)) l.content := .dropWhile fun _ _ => id
  rw [dropWhile_of_significant? h] at kept
  simpa [Line.tokens, RawLine.tokens, ending_of_significant? h] using
    kept.append (.refl l.ending.toList)

end Line

lemma RawLine.keeps_of_significant?_none {l : RawLine} (closed : l.IsClosed)
    (h : l.significant? = none) :
    Keeps [] l.tokens := by
  have kept : Keeps (l.content.dropWhile (·.kind.isTrivia)) l.content := .dropWhile fun _ _ => id
  rw [RawLine.significant?] at h
  split at h
  case h_1 heq =>
    rw [heq] at kept
    exact kept.trans closed.keeps
  case h_2 => cases h

namespace Item

def IsClosed : Item → Prop
  | line l => l.IsClosed
  | block _ => True

lemma forall_isClosed_map_line {ls : List Line} :
    (∀ i ∈ ls.map line, i.IsClosed) ↔ ∀ l ∈ ls, l.IsClosed := by
  simp [IsClosed]

@[simp] lemma flatMap_tokens_map_line (ls : List Line) :
    (ls.map line).flatMap tokens = ls.flatMap Line.tokens := by
  simp [List.flatMap_map, tokens]

lemma closing?_eq_some {l : RawLine} {indent more : List Token} {fence : Token}
    (h : closing? l = some (indent, fence, more)) :
    l.content = indent ++ fence :: more ∧ fence.kind = .fence ∧ l.body = fence :: more := by
  rw [closing?] at h
  split at h
  case h_1 => cases h
  case h_2 t rest heq =>
    split at h
    case isFalse => cases h
    case isTrue fenced =>
      simp only [Option.some.injEq, Prod.mk.injEq] at h
      obtain ⟨rfl, rfl, rfl⟩ := h
      refine ⟨?_, fenced, heq⟩
      rw [← heq]
      exact List.takeWhile_append_dropWhile.symm

lemma keeps_behindFence (more : List Token) {ending : Option Token}
    (closed : ∀ t ∈ ending, t.kind = .eol) :
    Keeps ((behindFence more ending).flatMap tokens) (more ++ ending.toList) := by
  have kept : Keeps (more.dropWhile (·.kind.isPad)) more :=
    .dropWhile fun _ _ => TokenKind.isTrivia_of_isPad
  rw [behindFence]
  split
  case h_1 heq =>
    rw [heq] at kept
    refine kept.append (.drop fun t ht => ?_)
    simp [closed t (by simpa using ht), TokenKind.isTrivia]
  case h_2 t rest heq =>
    rw [heq] at kept
    simpa [tokens, Line.tokens] using kept.append (.refl ending.toList)

def openTokens : Option (Line × List Token) → List Token
  | none => []
  | some (opening, content) => opening.tokens ++ content

theorem keeps_ofLines (opened : Option (Line × List Token)) {ls : List RawLine}
    (closed : ∀ l ∈ ls, l.IsClosed) :
    Keeps ((ofLines opened ls).flatMap tokens)
      (openTokens opened ++ ls.flatMap RawLine.tokens) := by
  fun_induction ofLines opened ls with
  | case1 => exact .refl []
  | case2 opening content =>
    simpa [tokens, Block.tokens, openTokens] using Keeps.refl (opening.tokens ++ content)
  | case3 l rest blank ih =>
    obtain ⟨first, others⟩ := List.forall_mem_cons.mp closed
    exact (RawLine.keeps_of_significant?_none first blank).append (ih others)
  | case4 l rest found here fence ih =>
    obtain ⟨first, others⟩ := List.forall_mem_cons.mp closed
    apply (ih others).trans
    simpa [openTokens] using (Line.keeps_of_significant? here).append
      (.refl (rest.flatMap RawLine.tokens))
  | case5 l rest found here fence ih =>
    obtain ⟨first, others⟩ := List.forall_mem_cons.mp closed
    exact (Line.keeps_of_significant? here).append (ih others)
  | case6 opening content l rest stays ih =>
    obtain ⟨first, others⟩ := List.forall_mem_cons.mp closed
    simpa [openTokens] using ih others
  | case7 opening content l rest indent fence more here ih =>
    obtain ⟨first, others⟩ := List.forall_mem_cons.mp closed
    have behind := keeps_behindFence more first.ending
    have kept := (Keeps.refl (opening.tokens ++ content ++ (indent ++ [fence]))).append
      (behind.append (ih others))
    simpa [tokens, Block.tokens, openTokens, RawLine.tokens, (closing?_eq_some here).1] using kept

theorem isClosed_ofLines (opened : Option (Line × List Token)) {ls : List RawLine}
    (closed : ∀ l ∈ ls, l.IsClosed) : ∀ i ∈ ofLines opened ls, i.IsClosed := by
  fun_induction ofLines opened ls with
  | case1 => simp
  | case2 opening content => simp [IsClosed]
  | case3 l rest blank ih => exact ih (List.forall_mem_cons.mp closed).2
  | case4 l rest found here fence ih => exact ih (List.forall_mem_cons.mp closed).2
  | case5 l rest found here fence ih =>
    obtain ⟨first, others⟩ := List.forall_mem_cons.mp closed
    refine List.forall_mem_cons.mpr ⟨?_, ih others⟩
    intro t ht
    exact first.ending t (Line.ending_of_significant? here ▸ ht)
  | case6 opening content l rest stays ih => exact ih (List.forall_mem_cons.mp closed).2
  | case7 opening content l rest indent fence more here ih =>
    obtain ⟨first, others⟩ := List.forall_mem_cons.mp closed
    refine List.forall_mem_cons.mpr ⟨trivial, List.forall_mem_append.mpr ⟨?_, ih others⟩⟩
    rw [behindFence]
    split
    · simp
    · simpa [IsClosed, Line.IsClosed] using first.ending

end Item

end FeatureFile
