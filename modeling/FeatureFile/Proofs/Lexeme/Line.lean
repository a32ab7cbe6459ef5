import FeatureFile.Proofs.Lexeme.Cut
import FeatureFile.Proofs.Lexeme.Rules
import FeatureFile.Scanner

namespace FeatureFile

open Text

namespace Fence

def behind (within : Option Fence) (text : List Char) : Option Fence :=
  match within with
  | none => at? text
  | some fence => if fence.marker.isPrefixOf text then none else some fence

end Fence

namespace Lexeme

def pad (c : Char) : Lexeme :=
  ⟨padKind c, [c], none⟩

def fence (text : List Char) : Lexeme :=
  ⟨.fence, text.take 3, none⟩

def keywordLine (m : Keyword.Match) (text : List Char) : List Lexeme :=
  let rest := text.drop m.length
  ⟨m.kind, text.take m.length, none⟩ ::
    match rest with
    | [] => []
    | c :: after =>
      if m.kind.isHeader then ⟨.colon, [c], none⟩ :: cut freeText (some c) 0 after
      else if c = '#' then [⟨.comment, rest, none⟩]
      else cut freeText none 0 rest

def plainLine (text : List Char) : List Lexeme :=
  match text with
  | [] => []
  | '#' :: _ => [⟨.comment, text, none⟩]
  | '|' :: _ => cut tableRow () 0 text
  | '@' :: _ => cut tagLine false 0 text
  | _ =>
    match Fence.at? text with
    | some _ => fence text :: cut docLine () 0 (text.drop 3)
    | none =>
      match Keyword.at? text with
      | some m => keywordLine m text
      | none => cut freeText none 0 text

def fencedLine (within : Fence) (text : List Char) : List Lexeme :=
  if within.marker.isPrefixOf text then
    fence text :: cut freeText within.marker.getLast? 0 (text.drop 3)
  else cut docLine () 0 text

def ofContent (within : Option Fence) (content : List Char) : List Lexeme :=
  let text := content.dropWhile isPad
  (content.takeWhile isPad).map pad ++
    match within with
    | none => plainLine text
    | some fence => fencedLine fence text

def ofEnding : List Char → List Lexeme
  | [] => []
  | ending => [⟨.eol, ending, none⟩]

def ofLines : Option Fence → List SourceLine → List Lexeme
  | _, [] => []
  | within, line :: rest =>
    ofContent within line.content ++ ofEnding line.ending ++
      ofLines (Fence.behind within (line.content.dropWhile isPad)) rest

def ofText (text : List Char) : List Lexeme :=
  ofLines none (lines text)

end Lexeme

end FeatureFile
