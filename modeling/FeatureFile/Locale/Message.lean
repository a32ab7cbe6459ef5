namespace FeatureFile.Locale

inductive Message where
  | severityError
  | severityWarning
  | located
  | openString
  | openDocString
  | missingFeature
  | unexpected
  | misplacedExamples
  | missingExamples
  | missingTable
  | emptyTag
  | unevenRow
  deriving DecidableEq, Repr

def Message.id : Message → String
  | severityError => "severity-error"
  | severityWarning => "severity-warning"
  | located => "diagnostic-located"
  | openString => "diagnostic-unterminated-string"
  | openDocString => "diagnostic-unterminated-doc-strings"
  | missingFeature => "diagnostic-missing-feature"
  | unexpected => "diagnostic-unexpected-content"
  | misplacedExamples => "diagnostic-misplaced-examples"
  | missingExamples => "diagnostic-missing-examples"
  | missingTable => "diagnostic-missing-table"
  | emptyTag => "diagnostic-empty-tag"
  | unevenRow => "diagnostic-uneven-table-row"

def isIsolate (c : Char) : Bool :=
  '\u2066' ≤ c && c ≤ '\u2069'

def stripIsolates (text : String) : String :=
  String.ofList (text.toList.filter (!isIsolate ·))

end FeatureFile.Locale
