import FeatureFile.Lexeme
import FeatureFile.Literal
import FeatureFile.Text.Utf8

namespace FeatureFile.Lexeme

open Text

def runLength (previous : Char) : List Char → Nat
  | [] => 0
  | c :: rest =>
    if isPad c || Literal.mayBegin previous c then 0 else runLength c rest + 1

def lastOf (c : Char) (rest : List Char) (more : Nat) : Char :=
  (rest.take more).getLast?.getD c

def textRun (c : Char) (rest : List Char) (openQuote : Option Nat) : Cut (Option Char) :=
  ⟨.text, runLength c rest, some (lastOf c rest (runLength c rest)), openQuote⟩

def freeText (previous : Option Char) (c : Char) (rest : List Char) : Cut (Option Char) :=
  if isPad c then ⟨padKind c, 0, some c, none⟩
  else if isWordStart previous then
    match Literal.scan c rest with
    | some (kind, more) => ⟨kind, more, some (lastOf c rest more), none⟩
    | none => textRun c rest (if Literal.isQuote c then some (byteLength (c :: rest)) else none)
  else textRun c rest none

def tagLine (signed : Bool) (c : Char) (rest : List Char) : Cut Bool :=
  if isPad c then ⟨padKind c, 0, false, none⟩
  else if c = '@' then ⟨.atSign, 0, true, none⟩
  else if signed && isTagChar c then ⟨.text, (rest.takeWhile isTagChar).length, false, none⟩
  else if c = '#' then ⟨.comment, rest.length, false, none⟩
  else ⟨.text, runLength c rest, false, none⟩

def untilBar (escaped : Bool) : List Char → List Char
  | [] => []
  | c :: rest =>
    if c = '|' && !escaped then [] else c :: untilBar (c = '\\' && !escaped) rest

def tableRow (_ : Unit) (c : Char) (rest : List Char) : Cut Unit :=
  if isPad c then ⟨padKind c, 0, (), none⟩
  else if c = '|' then ⟨.pipe, 0, (), none⟩
  else ⟨.cell, (dropEnd isPad (untilBar (c = '\\') rest)).length, (), none⟩

def docLine (_ : Unit) (c : Char) (rest : List Char) : Cut Unit :=
  if isPad c then ⟨padKind c, 0, (), none⟩
  else ⟨.text, (rest.takeWhile (!isPad ·)).length, (), none⟩

end FeatureFile.Lexeme
