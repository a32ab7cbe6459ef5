namespace FeatureFile

inductive Rule where
  | feature
  | tags
  | tag
  | featureBody
  | background
  | businessRules
  | businessRule
  | scenarios
  | scenario
  | scenarioOutline
  | steps
  | step
  | name
  | parameter
  | description
  | docStrings
  | docStringsValue
  | examples
  | table
  | tableHead
  | tableRows
  | tableRow
  | tableCell
  | tableCellValue
  deriving DecidableEq, Repr

def Rule.label : Rule → String
  | feature => "feature"
  | tags => "tags"
  | tag => "tag"
  | featureBody => "featureBody"
  | background => "background"
  | businessRules => "businessRules"
  | businessRule => "businessRule"
  | scenarios => "scenarios"
  | scenario => "scenario"
  | scenarioOutline => "scenarioOutline"
  | steps => "steps"
  | step => "step"
  | name => "name"
  | parameter => "parameter"
  | description => "description"
  | docStrings => "docStrings"
  | docStringsValue => "docStringsValue"
  | examples => "examples"
  | table => "table"
  | tableHead => "tableHead"
  | tableRows => "tableRows"
  | tableRow => "tableRow"
  | tableCell => "tableCell"
  | tableCellValue => "tableCellValue"

def Rule.all : List Rule :=
  [feature, tags, tag, featureBody, background, businessRules, businessRule, scenarios, scenario,
   scenarioOutline, steps, step, name, parameter, description, docStrings, docStringsValue, examples,
   table, tableHead, tableRows, tableRow, tableCell, tableCellValue]

def Rule.ofLabel? (label : String) : Option Rule :=
  all.find? (·.label = label)

end FeatureFile
