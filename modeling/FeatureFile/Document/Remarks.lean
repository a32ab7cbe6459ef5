import FeatureFile.Diagnostic
import FeatureFile.Document.Tree

namespace FeatureFile

/-- A fault, or a doc string below a step that is still open at the end, whose fault the scan
reports. -/
inductive Remark where
  | fault (diagnostic : Diagnostic)
  | openBlock
  deriving DecidableEq, Repr

namespace Remark

def diagnostic? : Remark → Option Diagnostic
  | fault d => some d
  | openBlock => none

def atToken (f : Fault) (t : Token) : Remark :=
  fault (.atToken f t)

end Remark

structure Options where
  warnUnevenTables : Bool
  deriving DecidableEq, Repr

/-- Of what is stray on one line, only the first is a fault. -/
def TagPart.remarks : Bool → List TagPart → List Remark
  | _, [] => []
  | reported, tag sign none :: rest => .atToken .emptyTag sign :: remarks reported rest
  | reported, tag _ (some _) :: rest => remarks reported rest
  | true, stray _ :: rest => remarks true rest
  | false, stray t :: rest => .atToken (.unexpected t.kind .tags) t :: remarks true rest

namespace Line

def tagRemarks (ls : List Line) : List Remark :=
  ls.flatMap fun l => TagPart.remarks false l.tagParts

def unevenRows (o : Options) (expected : Nat) : Nat → List Line → List Remark
  | _, [] => []
  | row, l :: rest =>
    if o.warnUnevenTables && l.cellCount ≠ expected then
      .fault (.of (.unevenRow row expected l.cellCount) l.rowTree.start l.rowTree.stop.offset) ::
        unevenRows o expected (row + 1) rest
    else unevenRows o expected (row + 1) rest

def tableRemarks (o : Options) : List Line → List Remark
  | [] => []
  | l :: rest => unevenRows o l.cellCount 1 rest

end Line

def Block.remarks (b : Block) : List Remark :=
  if b.closing.isNone then [.openBlock] else []

def Item.unexpected (context : Rule) (i : Item) : Remark :=
  .atToken (.unexpected i.kind context) i.head

def Entry.remarks {α : Type} (context : Rule) (member : α → List Remark) : Entry α → List Remark
  | placed a => member a
  | stray i => [i.unexpected context]

variable (o : Options)

def Step.remarks (s : Step) : List Remark :=
  s.block.toList.flatMap Block.remarks ++ Line.tableRemarks o s.rows

def Steps.remarks (s : Steps) : List Remark :=
  s.entries.flatMap (Entry.remarks .steps (Step.remarks o))

def Heading.remarks (h : Heading) : List Remark :=
  Line.tagRemarks h.tags

def Examples.remarks (e : Examples) : List Remark :=
  e.heading.remarks ++
    if e.rows.isEmpty then [.atToken .missingTable e.heading.header.head]
    else Line.tableRemarks o e.rows

namespace Scenario

def examplesRemarks (s : Scenario) : List Remark :=
  if s.isOutline then
    if s.examples.isEmpty then [.atToken .missingExamples s.heading.header.head]
    else s.examples.flatMap (Examples.remarks o)
  else s.examples.flatMap fun e => .atToken .misplacedExamples e.heading.head :: e.remarks o

def remarks (s : Scenario) : List Remark :=
  s.heading.remarks ++ s.steps.remarks o ++ s.examplesRemarks o

end Scenario

def Scenarios.remarks (s : Scenarios) : List Remark :=
  s.entries.flatMap (Entry.remarks .scenarios (Scenario.remarks o))

def Background.remarks (b : Background) : List Remark :=
  b.heading.remarks ++ b.steps.remarks o

def BusinessRule.remarks (r : BusinessRule) : List Remark :=
  r.heading.remarks ++ r.background.toList.flatMap (Background.remarks o) ++ r.scenarios.remarks o

def Content.remarks : Content → List Remark
  | scenarios s => s.remarks o
  | rules es => es.flatMap (Entry.remarks .businessRules (BusinessRule.remarks o))

def MissingHeader.remark (m : MissingHeader) : Remark :=
  .atToken (.missingFeature m.found) m.met

def Opening.remarks (o : Opening) : List Remark :=
  o.missing.toList.map MissingHeader.remark ++ o.heading.toList.flatMap Heading.remarks

def Feature.remarks (f : Feature) : List Remark :=
  f.opening.remarks ++ f.background.toList.flatMap (Background.remarks o) ++ f.content.remarks o

end FeatureFile
