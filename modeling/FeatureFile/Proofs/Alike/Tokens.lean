import FeatureFile.Proofs.Alike.Parse
import FeatureFile.Proofs.Token.Stream

/-!
Two texts whose tokens correspond one by one and stand at the same positions parse alike. How many
bytes a token takes makes no difference to that, as all that is sorted by offsets stands at tokens.
-/

namespace FeatureFile

variable {R : Token → Token → Prop} {text text' : List Char}

structure Token.SamePlace (t u : Token) : Prop where
  kind : t.kind = u.kind
  start : t.start.position = u.start.position
  stop : t.stop.position = u.stop.position

namespace Stream

def pairs (s s' : Stream) : List (Token × Token) :=
  s.content.zip s'.content ++ [(s.eof, s'.eof)]

lemma map_pairs {s s' : Stream} (length : s.content.length = s'.content.length) :
    (pairs s s').map Prod.fst = s.tokens ∧ (pairs s s').map Prod.snd = s'.tokens := by
  rw [pairs, List.map_append, List.map_append, List.map_fst_zip length.le,
    List.map_snd_zip length.ge]
  exact ⟨rfl, rfl⟩

structure Correspond (R : Token → Token → Prop) (text text' : List Char) : Prop where
  place : ∀ t u, R t u → t.SamePlace u
  content : List.Forall₂ R (ofText text).content (ofText text').content
  eof : R (ofText text).eof (ofText text').eof

namespace Correspond

variable (h : Correspond R text text')
include h

lemma of_mem_pairs {t u : Token} (pair : (t, u) ∈ pairs (ofText text) (ofText text')) : R t u := by
  rcases List.mem_append.mp pair with inside | last
  · exact (List.forall₂_iff_zip.mp h.content).2 inside
  · obtain ⟨rfl, rfl⟩ := Prod.mk.inj (List.mem_singleton.mp last)
    exact h.eof

def likeness : Likeness where
  token t u := (t, u) ∈ pairs (ofText text) (ofText text')
  mark m n := m.position = n.position
  kind pair := (h.place _ _ (h.of_mem_pairs pair)).kind
  start pair := (h.place _ _ (h.of_mem_pairs pair)).start
  stop pair := (h.place _ _ (h.of_mem_pairs pair)).stop

lemma alike_content :
    List.Forall₂ h.likeness.token (ofText text).content (ofText text').content :=
  List.forall₂_iff_zip.mpr ⟨h.content.length_eq, fun pair => List.mem_append_left _ pair⟩

lemma alike_eof : h.likeness.token (ofText text).eof (ofText text').eof :=
  List.mem_append_right _ List.mem_cons_self

lemma keepsOrder : h.likeness.KeepsOrder := by
  obtain ⟨left, right⟩ := map_pairs h.content.length_eq
  refine Likeness.keepsOrder_of_pairs _ (fun _ _ pair => pair) ?_ ?_
  · exact left ▸ pairwise_tokens text
  · exact right ▸ pairwise_tokens text'

lemma tokens : List.Forall₂ R (ofText text).tokens (ofText text').tokens :=
  List.rel_append h.content (.cons h.eof .nil)

lemma root (options : Options) :
    (parse options text).root.Mirrors R (fun m n => m.position = n.position)
      (parse options text').root := by
  have lines := Opening.readAlike_of_alike (RawLine.alike_ofTokens h.alike_content)
  have root := Parsed.alike_root options h.alike_eof lines
  exact root.mirrors (fun _ _ pair => h.of_mem_pairs pair) fun _ _ same => same

variable (sorts : List.Forall₂ ScanNote.SameSort (Lexeme.ofText (Text.stripMark text))
  (Lexeme.ofText (Text.stripMark text')))
include sorts

lemma reports : List.Forall₂ (fun r s => r.fault = s.fault ∧ r.start.position = s.start.position)
    (ofText text).reports (ofText text').reports :=
  (alike_reports sorts h.alike_content).imp fun _ _ report => ⟨report.fault, report.mark⟩

lemma diagnostics (options : Options) :
    List.Forall₂ (fun d e => d.fault = e.fault ∧ d.severity = e.severity ∧
        d.start.position = e.start.position)
      (parse options text).diagnostics (parse options text').diagnostics := by
  have lines := Opening.readAlike_of_alike (RawLine.alike_ofTokens h.alike_content)
  have alike := Parsed.alike_diagnostics options h.keepsOrder h.alike_eof lines
    (alike_reports sorts h.alike_content)
  exact alike.imp fun _ _ diagnostic => ⟨diagnostic.fault, diagnostic.severity, diagnostic.mark⟩

end Correspond

end Stream

end FeatureFile
