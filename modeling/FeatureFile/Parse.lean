import FeatureFile.Document.Remarks
import FeatureFile.Scanner

namespace FeatureFile

structure Parsed where
  stream : Stream
  feature : Feature
  remarks : List Remark

namespace Parsed

def tokens (p : Parsed) : List Token :=
  p.stream.tokens

def root (p : Parsed) : Tree :=
  p.feature.tree

def reported (p : Parsed) : List Diagnostic :=
  p.stream.reports.map .ofReport ++ p.remarks.filterMap Remark.diagnostic?

def diagnostics (p : Parsed) : List Diagnostic :=
  Diagnostic.sort p.reported

def errors (p : Parsed) : List Diagnostic :=
  p.diagnostics.filter Diagnostic.isError

def hasError (p : Parsed) : Bool :=
  p.root.hasError

end Parsed

def parse (options : Options) (text : List Char) : Parsed :=
  let stream := Stream.ofText text
  let feature := Feature.ofStream stream
  ⟨stream, feature, feature.remarks options⟩

namespace Parsed

theorem stream_parse (options : Options) (text : List Char) :
    (parse options text).stream = .ofText text :=
  rfl

theorem feature_parse (options : Options) (text : List Char) :
    (parse options text).feature = .ofStream (.ofText text) :=
  rfl

theorem remarks_parse (options : Options) (text : List Char) :
    (parse options text).remarks = (Feature.ofStream (.ofText text)).remarks options :=
  rfl

end Parsed

end FeatureFile
