import FeatureFile.Proofs.Alike.Tokens
import FeatureFile.Proofs.LetterCase.Lexemes

namespace FeatureFile

open Text (SameFold foldCase)

structure Token.SameButCase (t u : Token) : Prop where
  kind : t.kind = u.kind
  channel : t.channel = u.channel
  start : t.start.position = u.start.position
  stop : t.stop.position = u.stop.position
  text : SameFold t.text u.text

namespace Token

lemma position_advance_sameButCase {m n : Mark} (same : m.position = n.position) {l l' : Lexeme}
    (h : l.SameButCase l') :
    (m.advance l.kind l.text).position = (n.advance l'.kind l'.text).position := by
  rw [Mark.advance, Mark.advance, ← h.kind]
  split
  · rw [Mark.passBreak, Mark.passBreak, same]
  · rw [Mark.pass, Mark.pass, same, h.text.length_eq]

lemma sameButCase_place {m n : Mark} (same : m.position = n.position) {ls ls' : List Lexeme}
    (h : List.Forall₂ Lexeme.SameButCase ls ls') :
    List.Forall₂ SameButCase (place m ls) (place n ls') ∧
      (placeEnd m ls).position = (placeEnd n ls').position := by
  induction h generalizing m n with
  | nil => exact ⟨.nil, same⟩
  | @cons l l' ls ls' first _ ih =>
    have after := position_advance_sameButCase same first
    obtain ⟨rest, stop⟩ := ih after
    exact ⟨.cons ⟨first.kind, congrArg TokenKind.channel first.kind, same, after, first.text⟩ rest,
      stop⟩

end Token

namespace Stream

variable {text text' : List Char}

lemma correspond_of_sameFold (h : SameFold text text') :
    Correspond Token.SameButCase text text' := by
  have lexemes := Lexeme.sameButCase_ofText (Text.sameFold_stripMark h)
  have front : (origin text).position = (origin text').position := rfl
  obtain ⟨content, stop⟩ := Token.sameButCase_place front lexemes
  rw [← content_ofText, ← content_ofText] at content
  rw [← stop_eq, ← stop_eq] at stop
  exact ⟨fun _ _ same => ⟨same.kind, same.start, same.stop⟩, content, rfl, rfl, stop, stop, .nil⟩

end Stream

namespace Parsed

/-- Texts that are equal up to letter case are read alike: the tokens, what the scan and the document
report, and the tree are the same, at the same positions and in the same order. -/
theorem parse_caseless (options : Options) {text text' : List Char} (h : SameFold text text') :
    let s := Stream.ofText text
    let s' := Stream.ofText text'
    let p := parse options text
    let p' := parse options text'
    List.Forall₂ Token.SameButCase s.tokens s'.tokens ∧
      List.Forall₂ (fun r r' => r.fault = r'.fault ∧ r.start.position = r'.start.position)
        s.reports s'.reports ∧
      p.root.Mirrors Token.SameButCase (fun m n => m.position = n.position) p'.root ∧
      List.Forall₂ (fun d d' => d.fault = d'.fault ∧ d.severity = d'.severity ∧
        d.start.position = d'.start.position) p.diagnostics p'.diagnostics := by
  have tokens := Stream.correspond_of_sameFold h
  have sorts : List.Forall₂ ScanNote.SameSort _ _ :=
    (Lexeme.sameButCase_ofText (Text.sameFold_stripMark h)).imp fun _ _ same =>
      ⟨same.kind, same.openQuote⟩
  exact ⟨tokens.tokens, tokens.reports sorts, tokens.root options, tokens.diagnostics sorts options⟩

theorem parse_caseless_kelvin :
    let text := "Background:\n".toList
    let text' := "BAC\u212AGROUND:\n".toList
    SameFold text text' ∧ (Stream.ofText text).stop.offset + 2 = (Stream.ofText text').stop.offset ∧
      List.Forall₂ Token.SameButCase (Stream.ofText text).tokens (Stream.ofText text').tokens ∧
      List.Forall₂ (fun d d' => d.fault = d'.fault ∧ d.severity = d'.severity ∧
        d.start.position = d'.start.position)
        (parse ⟨true⟩ text).diagnostics (parse ⟨true⟩ text').diagnostics := by
  have same : SameFold "Background:\n".toList "BAC\u212AGROUND:\n".toList := by
    rw [SameFold]
    decide +kernel
  obtain ⟨tokens, -, -, diagnostics⟩ := parse_caseless ⟨true⟩ same
  exact ⟨same, by decide +kernel, tokens, diagnostics⟩

end Parsed

end FeatureFile
