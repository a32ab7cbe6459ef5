import FeatureFile.Text.Blank
import FeatureFile.View.Header
import FeatureFile.View.Table

namespace FeatureFile

inductive ScenarioView where
  | scenario (v : View .scenario)
  | outline (v : View .scenarioOutline)

inductive ContentView where
  | scenarios (v : View .scenarios)
  | rules (v : View .businessRules)

namespace ScenarioView

def cast? (t : Tree) : Option ScenarioView :=
  ((View.cast? .scenario t).map scenario).or ((View.cast? .scenarioOutline t).map outline)

def tree : ScenarioView → Tree
  | scenario v => v.tree
  | outline v => v.tree

end ScenarioView

def ContentView.cast? (t : Tree) : Option ContentView :=
  ((View.cast? .scenarios t).map scenarios).or ((View.cast? .businessRules t).map rules)

namespace View

variable {rule : Rule}

def body? (v : View .feature) : Option (View .featureBody) :=
  v.child? .featureBody

def background? (v : View rule) : Option (View .background) :=
  v.child? .background

def content? (v : View .featureBody) : Option ContentView :=
  v.tree.children.findSome? ContentView.cast?

def scenarios? (v : View rule) : Option (View .scenarios) :=
  v.child? .scenarios

def businessRules? (v : View .featureBody) : Option (View .businessRules) :=
  v.child? .businessRules

def ruleList (v : View .businessRules) : List (View .businessRule) :=
  v.childrenOf .businessRule

def items (v : View .scenarios) : List ScenarioView :=
  v.tree.children.filterMap ScenarioView.cast?

def plainScenarios (v : View .scenarios) : List (View .scenario) :=
  v.childrenOf .scenario

def outlines (v : View .scenarios) : List (View .scenarioOutline) :=
  v.childrenOf .scenarioOutline

def steps? (v : View rule) : Option (View .steps) :=
  v.child? .steps

def examples (v : View .scenarioOutline) : List (View .examples) :=
  v.childrenOf .examples

def table? (v : View rule) : Option (View .table) :=
  v.child? .table

def stepList (v : View .steps) : List (View .step) :=
  v.childrenOf .step

def stepToken? (v : View .step) : Option Token :=
  v.tree.ownTokens.find? (·.kind.isStep)

def docStrings? (v : View .step) : Option (View .docStrings) :=
  v.child? .docStrings

def docValue (v : View .docStrings) : List Char :=
  ((v.child? .docStringsValue).map text).getD []

def mediaType? (v : View .docStrings) : Option (List Char) :=
  let behind := (v.tree.ownTokens.drop 1).takeWhile fun t => t.kind ≠ .eol && t.kind ≠ .fence
  let media := Text.trim Text.isBlank (behind.flatMap (·.text))
  if media.isEmpty then none else some media

end View

namespace ScenarioView

def steps? (v : ScenarioView) : Option (View .steps) :=
  match v with
  | scenario v => v.steps?
  | outline v => v.steps?

end ScenarioView

end FeatureFile
