import FeatureFile.Tree.Basic

namespace FeatureFile

structure View (rule : Rule) where
  tree : Tree
  ofRule : tree.ofRule rule = true

namespace View

def cast? (rule : Rule) (t : Tree) : Option (View rule) :=
  if h : t.ofRule rule = true then some ⟨t, h⟩ else none

variable {rule : Rule}

def child? (v : View rule) (wanted : Rule) : Option (View wanted) :=
  (v.tree.child? wanted).bind (cast? wanted)

def childrenOf (v : View rule) (wanted : Rule) : List (View wanted) :=
  v.tree.children.filterMap (cast? wanted)

def text (v : View rule) : List Char :=
  v.tree.text

def hasError (v : View rule) : Bool :=
  v.tree.hasError

def empty (rule : Rule) : View rule :=
  ⟨.built rule ⟨0, .start⟩ [], by simp [Tree.ofRule, Tree.built, Tree.rule?]⟩

end View

def Rule.viewName? : Rule → Option String
  | feature => some "Feature"
  | tags => some "Tags"
  | tag => some "Tag"
  | featureBody => some "FeatureBody"
  | background => some "Background"
  | businessRules => some "BusinessRules"
  | businessRule => some "BusinessRule"
  | scenarios => some "Scenarios"
  | scenario => some "Scenario"
  | scenarioOutline => some "ScenarioOutline"
  | steps => some "Steps"
  | step => some "Step"
  | name => some "Name"
  | parameter => some "Parameter"
  | description => some "Description"
  | docStrings => some "DocStrings"
  | examples => some "Examples"
  | table => some "Table"
  | tableRow => some "TableRow"
  | tableCell => some "TableCell"
  | docStringsValue | tableHead | tableRows | tableCellValue => none

end FeatureFile
