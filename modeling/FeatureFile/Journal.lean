import FeatureFile.Locale.Report
import FeatureFile.Parse

namespace FeatureFile

inductive Level where
  | trace | debug
  deriving DecidableEq, Repr

def Level.name : Level → String
  | trace => "TRACE"
  | debug => "DEBUG"

structure Record where
  level : Level
  message : String
  deriving DecidableEq, Repr

namespace Record

def ofNote : ScanNote → Record
  | .opened place => ⟨.trace, "doc string opened at " ++ place.render⟩
  | .closed place => ⟨.trace, "doc string closed at " ++ place.render⟩
  | .reported r => ⟨.debug, r.render⟩

def ofRemark (w : Locale.Wording) : Remark → Record
  | .fault d => ⟨.debug, d.fault.render w ++ " at " ++ d.start.position.render⟩
  | .openBlock => ⟨.debug, "doc string block runs to the end of input"⟩

def summary (level : Level) (verb : String) (tokens diagnostics : Nat) : Record :=
  ⟨level, verb ++ " " ++ toString tokens ++ " tokens with " ++ toString diagnostics ++
    " diagnostics"⟩

end Record

def Stream.journal (s : Stream) : List Record :=
  s.notes.map .ofNote ++ s.openDocString.toList.map (fun r => ⟨.debug, r.render⟩) ++
    [.summary .trace "tokenized" s.tokens.length s.reports.length]

def Parsed.journal (w : Locale.Wording) (p : Parsed) : List Record :=
  p.stream.journal ++ p.remarks.map (.ofRemark w) ++
    [.summary .debug "parsed" p.tokens.length p.reported.length]

end FeatureFile
