import FeatureFile.Proofs.Alike.Tokens
import FeatureFile.Proofs.Text.Normalize

namespace FeatureFile

namespace Lexeme

def normalized (l : Lexeme) : Lexeme :=
  if l.kind = .eol then { l with text := ['\n'] } else l

@[simp] lemma kind_normalized (l : Lexeme) : l.normalized.kind = l.kind := by
  rw [normalized]
  split <;> rfl

@[simp] lemma openQuote_normalized (l : Lexeme) : l.normalized.openQuote = l.openQuote := by
  rw [normalized]
  split <;> rfl

lemma text_normalized {l : Lexeme} (inline : l.kind ≠ .eol) : l.normalized.text = l.text := by
  rw [normalized, if_neg inline]

lemma map_normalized_of_inline {ls : List Lexeme} (inline : ∀ k ∈ kinds ls, k ≠ .eol) :
    ls.map normalized = ls := by
  induction ls with
  | nil => rfl
  | cons l ls ih =>
    obtain ⟨first, rest⟩ := List.forall_mem_cons.mp inline
    rw [List.map_cons, ih rest, normalized, if_neg first]

lemma ofLines_map_normalized (within : Option Fence) (ls : List Text.SourceLine) :
    ofLines within (ls.map Text.SourceLine.normalized) = (ofLines within ls).map normalized := by
  induction ls generalizing within with
  | nil => rfl
  | cons line rest ih =>
    have ending : ofEnding (line.normalized).ending = (ofEnding line.ending).map normalized := by
      cases h : line.ending <;> simp [Text.SourceLine.normalized, ofEnding, normalized, h]
    rw [List.map_cons, ofLines, ih, ending, ofLines, List.map_append, List.map_append,
      map_normalized_of_inline fun k hk => (inline_of_mem_ofContent k hk).1]
    rfl

lemma ofText_normalize (text : List Char) :
    ofText (Text.normalize text) = (ofText text).map normalized := by
  rw [ofText, Text.lines_normalize, ofLines_map_normalized, ofText]

end Lexeme

structure Token.SameButBreak (t u : Token) : Prop where
  kind : t.kind = u.kind
  channel : t.channel = u.channel
  start : t.start.position = u.start.position
  stop : t.stop.position = u.stop.position
  text : t.kind ≠ .eol → t.text = u.text

namespace Token

lemma position_advance_normalized {m n : Mark} (same : m.position = n.position) (l : Lexeme) :
    (m.advance l.kind l.text).position =
      (n.advance l.normalized.kind l.normalized.text).position := by
  rw [Lexeme.kind_normalized, Mark.advance, Mark.advance]
  split
  · rw [Mark.passBreak, Mark.passBreak, same]
  case isFalse inline => rw [Mark.pass, Mark.pass, same, Lexeme.text_normalized inline]

lemma sameButBreak_place {m n : Mark} (same : m.position = n.position) (ls : List Lexeme) :
    List.Forall₂ SameButBreak (place m ls) (place n (ls.map Lexeme.normalized)) ∧
      (placeEnd m ls).position = (placeEnd n (ls.map Lexeme.normalized)).position := by
  induction ls generalizing m n with
  | nil => exact ⟨.nil, same⟩
  | cons l ls ih =>
    have after := position_advance_normalized same l
    have kind : l.kind = l.normalized.kind := (Lexeme.kind_normalized l).symm
    obtain ⟨rest, stop⟩ := ih after
    refine ⟨.cons ⟨kind, congrArg TokenKind.channel kind, same, after, fun inline => ?_⟩ rest, stop⟩
    exact (Lexeme.text_normalized inline).symm

end Token

namespace Stream

lemma sameSort_normalize (text : List Char) :
    List.Forall₂ ScanNote.SameSort (Lexeme.ofText (Text.stripMark text))
      (Lexeme.ofText (Text.stripMark (Text.normalize text))) := by
  rw [Text.stripMark_normalize, Lexeme.ofText_normalize, List.forall₂_map_right_iff,
    List.forall₂_same]
  exact fun l _ => ⟨(Lexeme.kind_normalized l).symm, by rw [Lexeme.openQuote_normalized]⟩

lemma correspond_normalize (text : List Char) :
    Correspond Token.SameButBreak text (Text.normalize text) := by
  have front : (origin text).position = (origin (Text.normalize text)).position := rfl
  have placed := Token.sameButBreak_place front (Lexeme.ofText (Text.stripMark text))
  rw [← Lexeme.ofText_normalize, ← Text.stripMark_normalize, ← content_ofText, ← content_ofText,
    ← stop_eq, ← stop_eq] at placed
  exact ⟨fun _ _ same => ⟨same.kind, same.start, same.stop⟩, placed.1,
    ⟨rfl, rfl, placed.2, placed.2, fun _ => rfl⟩⟩

end Stream

namespace Parsed

/-- A text parses like the same text with line feeds for its line breaks. Nothing moves but the
offsets: the tokens, what the scan and the document report, and the tree are the same, at the same
positions and in the same order. -/
theorem parse_normalize (options : Options) (text : List Char) :
    let p := parse options text
    let q := parse options (Text.normalize text)
    List.Forall₂ Token.SameButBreak p.tokens q.tokens ∧
      List.Forall₂ (fun r s => r.fault = s.fault ∧ r.start.position = s.start.position)
        p.stream.reports q.stream.reports ∧
      p.root.Mirrors Token.SameButBreak (fun m n => m.position = n.position) q.root ∧
      List.Forall₂ (fun d e => d.fault = e.fault ∧ d.severity = e.severity ∧
        d.start.position = e.start.position) p.diagnostics q.diagnostics := by
  have same := Stream.correspond_normalize text
  have sorts := Stream.sameSort_normalize text
  exact ⟨same.tokens, same.reports sorts, same.root options, same.diagnostics sorts options⟩

end Parsed

end FeatureFile
