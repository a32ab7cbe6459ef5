import FeatureFile.Diagnostic
import FeatureFile.Locale.Loading
import FeatureFile.Locale.Message

namespace FeatureFile

open FeatureFile.Locale

variable (w : Wording)

namespace Severity

def name : Severity → String
  | error => "Error"
  | warning => "Warning"

def message : Severity → Message
  | error => .severityError
  | warning => .severityWarning

def render (s : Severity) : String :=
  w.text s.message.id []

end Severity

namespace Fault

def message : Fault → Message
  | lexical .openString => .openString
  | lexical .openDocString => .openDocString
  | missingFeature _ => .missingFeature
  | unexpected _ _ => .unexpected
  | misplacedExamples => .misplacedExamples
  | missingExamples => .missingExamples
  | missingTable => .missingTable
  | emptyTag => .emptyTag
  | unevenRow _ _ _ => .unevenRow

def arguments : Fault → Arguments
  | missingFeature found => [("found", found.name)]
  | unexpected found context => [("found", found.name), ("context", context.label)]
  | unevenRow row expected actual =>
    [("row", toString row), ("expected", toString expected), ("actual", toString actual)]
  | _ => []

def render (f : Fault) : String :=
  stripIsolates (w.text f.message.id f.arguments)

end Fault

def Diagnostic.render (d : Diagnostic) : String :=
  stripIsolates (w.text Message.located.id
    [("line", toString d.start.position.line), ("column", toString d.start.position.column),
     ("severity", d.severity.render w), ("message", d.fault.render w)])

end FeatureFile
