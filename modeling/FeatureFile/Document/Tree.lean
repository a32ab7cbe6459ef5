import FeatureFile.Document.Feature
import FeatureFile.Document.Parts
import FeatureFile.Text.Blank
import FeatureFile.Tree.Basic

namespace FeatureFile

open FeatureFile.Tree (leaf node built)

namespace Line

def parameter (t : Token) : Tree :=
  built .parameter t.start [leaf t]

def nameChild (t : Token) : Tree :=
  if t.kind.isLiteral then parameter t else leaf t

def nameTree (keyword : Token) (rest : List Token) : Tree :=
  let shown := rest.dropWhile (·.kind.isPad)
  let anchor := match shown with
    | [] => (lastOf keyword rest).stop
    | t :: _ => t.start
  built .name anchor
    ((Text.dropEnd (·.kind.isPad) (shown.filter (·.kind ≠ .comment))).map nameChild)

def headerTrees (l : Line) : List Tree :=
  match l.tail with
  | [] => [leaf l.head, nameTree l.head []]
  | c :: rest =>
    if c.kind = .colon then [leaf l.head, leaf c, nameTree c rest]
    else [leaf l.head, nameTree l.head l.tail]

def tokenTrees (l : Line) : List Tree :=
  l.tokens.map leaf

end Line

namespace TagPart

def tree : TagPart → Tree
  | tag sign none => node .tag sign.start true [leaf sign]
  | tag sign (some name) => built .tag sign.start [leaf sign, leaf name]
  | stray t => leaf t

end TagPart

namespace RowPart

def cellChild (t : Token) : Tree :=
  if t.kind = .cell then built .tableCellValue t.start [leaf t] else leaf t

def tree (anchor : Mark) : RowPart → Tree
  | cell tokens => built .tableCell anchor (tokens.map cellChild)
  | loose t => leaf t

end RowPart

namespace Line

def rowTree (l : Line) : Tree :=
  built .tableRow l.start (l.rowParts.map (RowPart.tree l.start))

def tagTrees : List Line → List Tree
  | [] => []
  | l :: rest =>
    let parts := (l :: rest).flatMap tagParts
    [node .tags l.start (parts.any TagPart.isStray) (parts.map TagPart.tree)]

def tableTrees : List Line → List Tree
  | [] => []
  | l :: rest =>
    [built .table l.start
      [built .tableHead l.start [rowTree l], built .tableRows l.stop (rest.map rowTree)]]

end Line

namespace Block

def closingTrees (b : Block) : List Tree :=
  match b.closing with
  | none => []
  | some (indent, fence) => (indent ++ [fence]).map leaf

def tree (b : Block) : Tree :=
  node .docStrings b.opening.start b.closing.isNone
    (b.opening.tokenTrees ++ built .docStringsValue b.opening.stop (b.content.map leaf) ::
      b.closingTrees)

end Block

def Item.trees (i : Item) : List Tree :=
  i.tokens.map leaf

def Entry.trees {α : Type} (member : α → Tree) : Entry α → List Tree
  | placed a => [member a]
  | stray i => i.trees

def sectionTree {α : Type} (rule : Rule) (anchor : Mark) (member : α → Tree)
    (entries : List (Entry α)) : Tree :=
  node rule anchor (entries.any Entry.isStray) (entries.flatMap (Entry.trees member))

namespace Step

def tree (s : Step) : Tree :=
  built .step s.line.start
    (leaf s.line.head :: Line.nameTree s.line.head s.line.tail ::
      (s.block.toList.map Block.tree ++ Line.tableTrees s.rows))

end Step

def Steps.tree (s : Steps) : Tree :=
  sectionTree .steps s.anchor Step.tree s.entries

namespace Heading

def descriptionTree (h : Heading) : Tree :=
  built .description h.header.stop (h.description.flatMap Line.tokenTrees)

def trees (h : Heading) : List Tree :=
  Line.tagTrees h.tags ++ h.header.headerTrees ++ [h.descriptionTree]

end Heading

def Examples.tree (e : Examples) : Tree :=
  node .examples e.heading.head.start e.rows.isEmpty (e.heading.trees ++ Line.tableTrees e.rows)

namespace Scenario

def isOutline (s : Scenario) : Bool :=
  s.heading.kind = .header .outline

def rule (s : Scenario) : Rule :=
  if s.isOutline then .scenarioOutline else .scenario

def isFaulty (s : Scenario) : Bool :=
  if s.isOutline then s.examples.isEmpty else !s.examples.isEmpty

def tree (s : Scenario) : Tree :=
  node s.rule s.heading.head.start s.isFaulty
    (s.heading.trees ++ s.steps.tree :: s.examples.map Examples.tree)

end Scenario

def Scenarios.tree (s : Scenarios) : Tree :=
  sectionTree .scenarios s.anchor Scenario.tree s.entries

def Background.tree (b : Background) : Tree :=
  built .background b.heading.head.start (b.heading.trees ++ [b.steps.tree])

def BusinessRule.tree (r : BusinessRule) : Tree :=
  built .businessRule r.heading.head.start
    (r.heading.trees ++ (r.background.toList.map Background.tree ++ [r.scenarios.tree]))

def Content.tree (anchor : Mark) : Content → Tree
  | scenarios s => s.tree
  | rules es => sectionTree .businessRules anchor BusinessRule.tree es

def Opening.headingTrees (o : Opening) : List Tree :=
  match o.heading with
  | some h => h.trees
  | none => [built .name o.anchor [], built .description o.anchor []]

namespace Feature

def bodyTree (f : Feature) : Tree :=
  built .featureBody f.anchor
    (f.background.toList.map Background.tree ++ [f.content.tree f.anchor])

def tree (f : Feature) : Tree :=
  node .feature f.opening.anchor f.opening.missing.isSome
    (f.opening.junk.flatMap Line.tokenTrees ++ f.opening.headingTrees ++ [f.bodyTree])

end Feature

end FeatureFile
