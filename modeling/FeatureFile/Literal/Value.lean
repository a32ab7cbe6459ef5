import FeatureFile.Literal
import FeatureFile.Number.Shortest

namespace FeatureFile

inductive LiteralKind where
  | string | decimal | float
  deriving DecidableEq, Repr

namespace LiteralKind

def name : LiteralKind → String
  | string => "string"
  | decimal => "decimal"
  | float => "float"

def ofToken? : TokenKind → Option LiteralKind
  | .string => some string
  | .decimal => some decimal
  | .float => some float
  | _ => none

def token : LiteralKind → TokenKind
  | string => .string
  | decimal => .decimal
  | float => .float

end LiteralKind

inductive Value where
  | string (text : List Char)
  | decimal (n : Int)
  | float (x : Number.Double)
  deriving DecidableEq, Repr

namespace Value

def closed? (quote : Char) : List Char → Option (List Char)
  | [] => none
  | [c] => if c = quote then some [] else none
  | c :: rest => (closed? quote rest).map (c :: ·)

def unquote? : List Char → Option (List Char)
  | [] => none
  | c :: rest => if Literal.isQuote c then closed? c rest else none

def read? (kind : LiteralKind) (text : List Char) : Option Value :=
  match kind with
  | .string => (unquote? text).map string
  | .decimal => (Number.int64? text).map decimal
  | .float => (Number.Double.read? text).map float

def render : Value → List Char
  | string text => text
  | decimal n => (toString n).toList
  | float x => x.render

end Value

end FeatureFile
