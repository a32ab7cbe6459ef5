namespace FeatureFile

inductive HeaderWord where
  | feature | background | rule | scenario | example | outline | examples | scenarios
  deriving DecidableEq, Repr

inductive StepWord where
  | given | when | ifStep | thenStep | and | but
  deriving DecidableEq, Repr

inductive TokenKind where
  | header (word : HeaderWord)
  | step (word : StepWord)
  | colon
  | atSign
  | pipe
  | placeholder
  | string
  | decimal
  | float
  | space
  | tab
  | eol
  | text
  | fence
  | cell
  | comment
  | eof
  deriving DecidableEq, Repr

inductive Channel where
  | default | hidden
  deriving DecidableEq, Repr

def Channel.name : Channel → String
  | .default => "default"
  | .hidden => "hidden"

def HeaderWord.name : HeaderWord → String
  | .feature => "FEATURE_KEYWORD"
  | .background => "BACKGROUND_KEYWORD"
  | .rule => "RULE_KEYWORD"
  | .scenario => "SCENARIO_KEYWORD"
  | .example => "EXAMPLE_KEYWORD"
  | .outline => "SCENARIO_OUTLINE_KEYWORD"
  | .examples => "EXAMPLES_KEYWORD"
  | .scenarios => "SCENARIOS_KEYWORD"

def StepWord.name : StepWord → String
  | .given => "GIVEN_KEYWORD"
  | .when => "WHEN_KEYWORD"
  | .ifStep => "IF_KEYWORD"
  | .thenStep => "THEN_KEYWORD"
  | .and => "AND_KEYWORD"
  | .but => "BUT_KEYWORD"

namespace TokenKind

def name : TokenKind → String
  | header word => word.name
  | step word => word.name
  | colon => "COLON"
  | atSign => "AT"
  | pipe => "PIPE"
  | placeholder => "ANGLE_PARAMETER"
  | string => "STRING"
  | decimal => "DECIMAL"
  | float => "FLOAT"
  | space => "SPACE"
  | tab => "TAB"
  | eol => "EOL"
  | text => "ANYSYMBOL"
  | fence => "DOC_STRINGS"
  | cell => "TABLE_CELL"
  | comment => "COMMENT"
  | eof => "EOF"

def all : List TokenKind :=
  [header .feature, header .background, header .rule, header .scenario, header .example,
   header .outline, header .examples, header .scenarios, step .given, step .when, step .ifStep,
   step .thenStep, step .and, step .but, colon, atSign, pipe, placeholder, string, decimal, float,
   space, tab, eol, text, fence, cell, comment, eof]

def ofName? (name : String) : Option TokenKind :=
  all.find? (·.name = name)

def isHeader : TokenKind → Bool
  | header _ => true
  | _ => false

def isStep : TokenKind → Bool
  | step _ => true
  | _ => false

def isKeyword (k : TokenKind) : Bool :=
  k.isHeader || k.isStep

def isPad : TokenKind → Bool
  | space | tab => true
  | _ => false

def isLayout : TokenKind → Bool
  | space | tab | eol => true
  | _ => false

def isTrivia : TokenKind → Bool
  | space | tab | eol | comment => true
  | _ => false

def isLiteral : TokenKind → Bool
  | string | decimal | float => true
  | _ => false

def channel (k : TokenKind) : Channel :=
  if k.isTrivia then .hidden else .default

end TokenKind

end FeatureFile
