import FeatureFile.Proofs.Alike.Mirrors
import FeatureFile.Proofs.Alike.Remarks
import FeatureFile.Proofs.Token.Reports

namespace FeatureFile

variable {L : Likeness}

structure LexicalReport.Alike (L : Likeness) (r s : LexicalReport) : Prop where
  fault : r.fault = s.fault
  start : ∃ t u, L.token t u ∧ r.start = t.start ∧ s.start = u.start

lemma LexicalReport.Alike.mark {r s : LexicalReport} (h : r.Alike L s) :
    L.mark r.start s.start := by
  obtain ⟨t, u, here, left, right⟩ := h.start
  rw [left, right]
  exact L.start here

namespace ScanNote

def SameSort (l l' : Lexeme) : Prop :=
  l.kind = l'.kind ∧ l.openQuote.isSome = l'.openQuote.isSome

lemma alike_quoteReports {ls ls' : List Lexeme} {m m' : Mark} (same : List.Forall₂ SameSort ls ls')
    (tokens : List.Forall₂ L.token (Token.place m ls) (Token.place m' ls')) :
    List.Forall₂ (LexicalReport.Alike L) (quoteReports m ls) (quoteReports m' ls') := by
  induction same generalizing m m' with
  | nil => exact .nil
  | @cons l l' ls ls' first _ ih =>
    obtain _ | ⟨token, others⟩ := tokens
    obtain ⟨kind, quote⟩ := first
    refine List.rel_append (Option.Rel.forall₂_toList ?_) (ih others)
    rw [quoteReport?, quoteReport?, ← kind]
    split
    · exact .none
    · rcases unread : l.openQuote with _ | q <;> rcases unread' : l'.openQuote with _ | q'
      · exact .none
      · simp [unread, unread'] at quote
      · simp [unread, unread'] at quote
      · exact .some ⟨rfl, _, _, token, rfl, rfl⟩

lemma sameSort_refl (ls : List Lexeme) : List.Forall₂ SameSort ls ls :=
  List.forall₂_same.mpr fun _ _ => ⟨rfl, rfl⟩

end ScanNote

lemma alike_fenceBehind {found found' : Option Token} {ts us : List Token}
    (front : Option.Rel L.token found found') (h : List.Forall₂ L.token ts us) :
    Option.Rel L.token (fenceBehind found ts) (fenceBehind found' us) := by
  induction h generalizing found found' with
  | nil => exact front
  | @cons t u ts us first _ ih =>
    by_cases fence : t.kind = .fence
    · rw [fenceBehind_cons_fence fence, fenceBehind_cons_fence (L.kind first ▸ fence)]
      cases front with
      | none => exact ih (.some first)
      | some _ => exact ih .none
    · have other : u.kind ≠ .fence := L.kind first ▸ fence
      simpa [fenceBehind, fence, other] using ih front

namespace Stream

variable {text text' : List Char}

lemma alike_openDocString
    (h : Option.Rel L.token (openFence (ofText text).content) (openFence (ofText text').content)) :
    List.Forall₂ (LexicalReport.Alike L) (ofText text).openDocString.toList
      (ofText text').openDocString.toList := by
  rw [openDocString_ofText, openDocString_ofText]
  generalize openFence (ofText text).content = a at h
  generalize openFence (ofText text').content = b at h
  cases h with
  | none => exact .nil
  | some here => exact .cons ⟨rfl, _, _, here, rfl, rfl⟩ .nil

variable (sorts : List.Forall₂ ScanNote.SameSort (Lexeme.ofText (Text.stripMark text))
    (Lexeme.ofText (Text.stripMark text')))
  (content : List.Forall₂ L.token (ofText text).content (ofText text').content)

include sorts content

lemma alike_quotes : List.Forall₂ (LexicalReport.Alike L) (quotes text) (quotes text') := by
  rw [content_ofText, content_ofText] at content
  exact ScanNote.alike_quoteReports sorts content

lemma alike_reports :
    List.Forall₂ (LexicalReport.Alike L) (ofText text).reports (ofText text').reports := by
  rw [reports_eq, reports_eq]
  exact List.rel_append (alike_quotes sorts content)
    (alike_openDocString (alike_fenceBehind .none content))

end Stream

def Token.SameOrder (p q : Token × Token) : Prop :=
  p.1.start.offset ≤ q.1.start.offset ↔ p.2.start.offset ≤ q.2.start.offset

namespace Likeness

def KeepsOrder (L : Likeness) : Prop :=
  ∀ t u t' u', L.token t u → L.token t' u' → Token.SameOrder (t, u) (t', u')

lemma keepsOrder_of_pairs (pairs : List (Token × Token))
    (paired : ∀ t u, L.token t u → (t, u) ∈ pairs)
    (left : (pairs.map Prod.fst).Pairwise fun t t' => t.start.offset < t'.start.offset)
    (right : (pairs.map Prod.snd).Pairwise fun u u' => u.start.offset < u'.start.offset) :
    L.KeepsOrder := by
  have both := (List.pairwise_map.mp left).and (List.pairwise_map.mp right)
  have forward : pairs.Pairwise Token.SameOrder :=
    both.imp fun h => by rw [Token.SameOrder]; omega
  have backward : pairs.Pairwise (flip Token.SameOrder) :=
    both.imp fun h => by rw [flip, Token.SameOrder]; omega
  have same (p : Token × Token) (_ : p ∈ pairs) : Token.SameOrder p p :=
    iff_of_true (Nat.le_refl _) (Nat.le_refl _)
  intro t u t' u' h h'
  exact forward.forall_of_forall_of_flip same backward (paired t u h) (paired t' u' h')

end Likeness

namespace Diagnostic

lemma alike_ofReport {r s : LexicalReport} (h : r.Alike L s) :
    (ofReport r).Alike L (ofReport s) := by
  refine ⟨congrArg Fault.lexical h.fault, ?_, h.start⟩
  simp [ofReport, of, h.fault]

lemma map_mergeSort_eq_sort {α : Type} {f : α → Diagnostic} {le : α → α → Bool} {as : List α}
    (agrees : ∀ a ∈ as, ∀ b ∈ as, le a b = decide ((f a).start.offset ≤ (f b).start.offset)) :
    (as.mergeSort le).map f = sort (as.map f) :=
  List.map_mergeSort agrees

lemma alike_sort {ds es : List Diagnostic} (order : L.KeepsOrder)
    (h : List.Forall₂ (Alike L) ds es) :
    List.Forall₂ (Alike L) (sort ds) (sort es) := by
  obtain ⟨length, pairs⟩ := List.forall₂_iff_zip.mp h
  have agrees (p q : Diagnostic × Diagnostic) (hp : p ∈ ds.zip es) (hq : q ∈ ds.zip es) :
      p.1.start.offset ≤ q.1.start.offset ↔ p.2.start.offset ≤ q.2.start.offset := by
    obtain ⟨t, u, here, left, right⟩ := (pairs hp).start
    obtain ⟨t', u', here', left', right'⟩ := (pairs hq).start
    rw [left, right, left', right']
    exact order t u t' u' here here'
  -- The pairs are sorted once, by their first members, which sorts both lists.
  generalize sorts : (ds.zip es).mergeSort (fun p q => p.1.start.offset ≤ q.1.start.offset) = sorted
  have lefts : sorted.map Prod.fst = sort ds := by
    rw [← sorts, map_mergeSort_eq_sort fun _ _ _ _ => rfl, List.map_fst_zip length.le]
  have rights : sorted.map Prod.snd = sort es := by
    rw [← sorts, map_mergeSort_eq_sort fun p hp q hq => by simp only [agrees p q hp hq],
      List.map_snd_zip length.ge]
  rw [← lefts, ← rights, List.forall₂_map_left_iff, List.forall₂_map_right_iff, List.forall₂_same]
  exact fun p hp => pairs (List.mem_mergeSort.mp (sorts ▸ hp))

end Diagnostic

namespace Parsed

variable (options : Options) {text text' : List Char}

lemma alike_root (stop : L.token (Stream.ofText text).eof (Stream.ofText text').eof)
    (h : Opening.ReadAlike L (RawLine.ofTokens (Stream.ofText text).content)
      (RawLine.ofTokens (Stream.ofText text').content)) :
    (parse options text).root.Alike L (parse options text').root :=
  (Feature.alike_ofLines stop h).tree

lemma alike_diagnostics (order : L.KeepsOrder)
    (stop : L.token (Stream.ofText text).eof (Stream.ofText text').eof)
    (h : Opening.ReadAlike L (RawLine.ofTokens (Stream.ofText text).content)
      (RawLine.ofTokens (Stream.ofText text').content))
    (reports : List.Forall₂ (LexicalReport.Alike L) (Stream.ofText text).reports
      (Stream.ofText text').reports) :
    List.Forall₂ (Diagnostic.Alike L) (parse options text).diagnostics
      (parse options text').diagnostics := by
  have remarks := (Feature.alike_ofLines stop h).remarks options
  rw [diagnostics, diagnostics, reported, reported, remarks_parse, remarks_parse]
  exact Diagnostic.alike_sort order (List.rel_append
    (List.rel_map (fun _ _ report => Diagnostic.alike_ofReport report) reports)
    (Remark.alike_diagnostics remarks))

end Parsed

end FeatureFile
