import FeatureFile.Token.Kind
import FeatureFile.Text.Alphanumeric
import FeatureFile.Text.Blank
import FeatureFile.Text.Lines

/-!
Literals inside free text: quoted strings, numbers and placeholders in angle brackets. Each scanner
is given the text behind the first character and tells how many more characters belong to the
literal.
-/

namespace FeatureFile.Literal

open Text

def isQuote (c : Char) : Bool :=
  c = '"' || c = '\''

def string (quote : Char) : List Char → Option Nat
  | [] => none
  | c :: rest =>
    if isBreak c then none
    else if c = quote then some 1
    else (string quote rest).map (· + 1)

def digitCount (text : List Char) : Nat :=
  (text.takeWhile Char.isDigit).length

def isFused : List Char → Bool
  | [] => false
  | '.' :: c :: _ => c.isDigit
  | c :: _ => isAlphanumeric c || c = '_'

def fraction : List Char → Nat
  | '.' :: rest => if digitCount rest = 0 then 0 else digitCount rest + 1
  | _ => 0

def number (text : List Char) : Option (TokenKind × Nat) :=
  let whole := digitCount text
  let part := fraction (text.drop whole)
  if isFused (text.drop (whole + part)) then none
  else some (if part = 0 then .decimal else .float, whole + part)

def closeAngle : List Char → Option Nat
  | [] => none
  | c :: rest =>
    if c = '>' then some 1
    else if c = '<' || isBreak c then none
    else (closeAngle rest).map (· + 1)

def placeholder : List Char → Option Nat
  | [] => none
  | c :: rest =>
    if isBlank c || c = '<' || c = '>' then none else (closeAngle rest).map (· + 1)

def scan (c : Char) (rest : List Char) : Option (TokenKind × Nat) :=
  if isQuote c then (string c rest).map (TokenKind.string, ·)
  else if c = '<' then (placeholder rest).map (TokenKind.placeholder, ·)
  else if c.isDigit then number rest
  else none

def mayBegin (previous c : Char) : Bool :=
  !isAlphanumeric previous &&
    (isQuote c || c = '<' || (c.isDigit && previous != '.' && previous != '_'))

end FeatureFile.Literal
