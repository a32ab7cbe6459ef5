import FeatureFile.Literal.Value
import FeatureFile.View.Basic

namespace FeatureFile.View

variable {rule : Rule}

def name (v : View rule) : View .name :=
  (v.child? .name).getD (empty .name)

def description (v : View rule) : View .description :=
  (v.child? .description).getD (empty .description)

def headerToken? (v : View rule) : Option Token :=
  v.tree.ownTokens.find? (·.kind.isHeader)

def tags? (v : View rule) : Option (View .tags) :=
  v.child? .tags

def parameters (v : View .name) : List (View .parameter) :=
  v.childrenOf .parameter

def literal? (v : View .parameter) : Option Token :=
  v.tree.ownTokens.head?

def literalKind? (v : View .parameter) : Option LiteralKind :=
  v.literal?.bind fun t => LiteralKind.ofToken? t.kind

def value? (v : View .parameter) : Option Value :=
  v.literal?.bind fun t => (LiteralKind.ofToken? t.kind).bind (Value.read? · t.text)

def tagList (v : View .tags) : List (View .tag) :=
  v.childrenOf .tag

def tagName? (v : View .tag) : Option (List Char) :=
  (v.tree.ownTokens.find? (·.kind = .text)).map (·.text)

def tagNames (v : View .tags) : List (List Char) :=
  v.tagList.filterMap tagName?

end FeatureFile.View
