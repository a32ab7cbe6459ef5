import FeatureFile.Token.Kind
import FeatureFile.Position
import FeatureFile.Text.Quoted

namespace FeatureFile

structure Token where
  kind : TokenKind
  text : List Char
  start : Mark
  deriving DecidableEq, Repr

def Mark.advance (m : Mark) (kind : TokenKind) (text : List Char) : Mark :=
  if kind = .eol then m.passBreak text else m.pass text

namespace Token

def stop (t : Token) : Mark :=
  t.start.advance t.kind t.text

def channel (t : Token) : Channel :=
  t.kind.channel

def isEmpty (t : Token) : Bool :=
  t.text.isEmpty

def render (t : Token) : String :=
  t.kind.name ++ " " ++ String.ofList (Text.quote t.text) ++ " at " ++ t.start.position.render

end Token

end FeatureFile
