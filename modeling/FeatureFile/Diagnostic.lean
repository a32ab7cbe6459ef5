import FeatureFile.Token.Stream
import FeatureFile.Tree.Rule

namespace FeatureFile

inductive Severity where
  | error | warning
  deriving DecidableEq, Repr

inductive Fault where
  | lexical (fault : LexicalFault)
  | missingFeature (found : TokenKind)
  | unexpected (found : TokenKind) (context : Rule)
  | misplacedExamples
  | missingExamples
  | missingTable
  | emptyTag
  | unevenRow (row expected actual : Nat)
  deriving DecidableEq, Repr

namespace Fault

def isUneven : Fault → Bool
  | unevenRow _ _ _ => true
  | _ => false

def severity (f : Fault) : Severity :=
  if f.isUneven then .warning else .error

end Fault

structure Diagnostic where
  fault : Fault
  severity : Severity
  start : Mark
  stop : Nat
  deriving DecidableEq, Repr

namespace Diagnostic

def of (fault : Fault) (start : Mark) (stop : Nat) : Diagnostic :=
  ⟨fault, fault.severity, start, stop⟩

def atToken (fault : Fault) (t : Token) : Diagnostic :=
  of fault t.start t.stop.offset

def ofReport (r : LexicalReport) : Diagnostic :=
  of (.lexical r.fault) r.start r.stop

def isError (d : Diagnostic) : Bool :=
  d.severity = .error

/-- In the order of the text; of two at one place the earlier report comes first. -/
def sort (ds : List Diagnostic) : List Diagnostic :=
  ds.mergeSort fun a b => a.start.offset ≤ b.start.offset

end Diagnostic

end FeatureFile
