import FeatureFile.Token.Basic

namespace FeatureFile

inductive LexicalFault where
  | openString | openDocString
  deriving DecidableEq, Repr

namespace LexicalFault

def name : LexicalFault → String
  | openString => "UnterminatedString"
  | openDocString => "UnterminatedDocStrings"

def describe : LexicalFault → String
  | openString => "unterminated quoted string"
  | openDocString => "unterminated doc string block"

end LexicalFault

/-- A fault at a place; `stop` is the offset behind what it is about. -/
structure LexicalReport where
  fault : LexicalFault
  start : Mark
  stop : Nat
  deriving DecidableEq, Repr

def LexicalReport.render (r : LexicalReport) : String :=
  r.fault.describe ++ " at " ++ r.start.position.render

inductive ScanNote where
  | opened (place : Position)
  | closed (place : Position)
  | reported (report : LexicalReport)
  deriving DecidableEq, Repr

namespace ScanNote

def report? : ScanNote → Option LexicalReport
  | reported r => some r
  | _ => none

end ScanNote

/-- `content` is every token but the end of input, which stands at `stop`. -/
structure Stream where
  content : List Token
  stop : Mark
  notes : List ScanNote
  openDocString : Option LexicalReport

namespace Stream

def origin (text : List Char) : Mark :=
  ⟨Text.byteLength text - Text.byteLength (Text.stripMark text), .start⟩

def eof (s : Stream) : Token :=
  ⟨.eof, [], s.stop⟩

def tokens (s : Stream) : List Token :=
  s.content ++ [s.eof]

def reports (s : Stream) : List LexicalReport :=
  s.notes.filterMap ScanNote.report? ++ s.openDocString.toList

def significant (s : Stream) : List Token :=
  s.tokens.filter (·.channel = .default)

def reconstruct (s : Stream) : List Char :=
  s.tokens.flatMap (·.text)

end Stream

end FeatureFile
