import FeatureFile.Keyword
import FeatureFile.Lexeme
import FeatureFile.Literal
import FeatureFile.Token.Stream

/-!
The scanner. At a character it looks at what its line has shown so far, at the character before and at
all the text behind, and cuts off one lexeme.
-/

namespace FeatureFile

open Text

inductive Fence where
  | quotes | backticks
  deriving DecidableEq, Repr

namespace Fence

def width : Nat := 3

def marker : Fence → List Char
  | quotes => ['"', '"', '"']
  | backticks => ['\x60', '\x60', '\x60']

def at? (text : List Char) : Option Fence :=
  if quotes.marker.isPrefixOf text then some quotes
  else if backticks.marker.isPrefixOf text then some backticks
  else none

end Fence

/-- Whether a doc string is open, by which fence and from where on. -/
inductive Mode where
  | plain
  | docString (fence : Fence) (opened : Mark)
  deriving DecidableEq, Repr

def Mode.report? : Mode → Option LexicalReport
  | plain => none
  | docString _ opened => some ⟨.openDocString, opened, opened.offset + Fence.width⟩

/-- What a line has shown so far. Behind the keyword of a header its colon is due, and behind the sign
of a tag its name. -/
inductive Shown where
  | nothing | header | step | sign | tags | row | text
  deriving DecidableEq, Repr

def Shown.behindPad : Shown → Shown
  | step => text
  | sign => tags
  | shown => shown

structure Scanner where
  mark : Mark
  previous : Option Char
  mode : Mode
  shown : Shown
  deriving DecidableEq, Repr

namespace Scanner

open Lexeme (padKind isWordStart isTagChar)

def breakMore? (c : Char) (rest : List Char) : Option Nat :=
  if c = '\r' then some (if rest.head? = some '\n' then 1 else 0)
  else if c = '\n' then some 0
  else none

def isLayout (c : Char) : Bool :=
  isPad c || isBreak c

def lineRest (text : List Char) : List Char :=
  text.takeWhile (!isBreak ·)

/-- How many of the characters of `rest` go on with a run of text whose last character so far is
`previous`: up to layout, or to where a literal may begin. -/
def runLength (previous : Char) : List Char → Nat
  | [] => 0
  | c :: rest =>
    if isLayout c || Literal.mayBegin previous c then 0 else runLength c rest + 1

/-- What a cell holds up to the end of its line or the next bar; a backslash takes away the meaning of
the character behind it. -/
def untilBar (escaped : Bool) : List Char → List Char
  | [] => []
  | c :: rest =>
    if isBreak c || (c = '|' && !escaped) then []
    else c :: untilBar (c = '\\' && !escaped) rest

variable (s : Scanner) (c : Char) (rest : List Char)

def comment : Cut (Mode × Shown) :=
  ⟨.comment, (lineRest rest).length, (s.mode, .text), none⟩

def textRun (openQuote : Option Nat) : Cut (Mode × Shown) :=
  ⟨.text, runLength c rest, (s.mode, s.shown), openQuote⟩

def freeText : Cut (Mode × Shown) :=
  if isWordStart s.previous then
    match Literal.scan c rest with
    | some (kind, more) => ⟨kind, more, (s.mode, s.shown), none⟩
    | none =>
      s.textRun c rest
        (if Literal.isQuote c then some (byteLength (c :: lineRest rest)) else none)
  else s.textRun c rest none

def tagLine : Cut (Mode × Shown) :=
  if c = '@' then ⟨.atSign, 0, (s.mode, .sign), none⟩
  else if c = '#' then s.comment rest
  else s.textRun c rest none

def tableRow : Cut (Mode × Shown) :=
  if c = '|' then ⟨.pipe, 0, (s.mode, s.shown), none⟩
  else ⟨.cell, (dropEnd isPad (untilBar (c = '\\') rest)).length, (s.mode, s.shown), none⟩

def lineStart : Cut (Mode × Shown) :=
  if c = '#' then s.comment rest
  else if c = '|' then ⟨.pipe, 0, (s.mode, .row), none⟩
  else if c = '@' then ⟨.atSign, 0, (s.mode, .sign), none⟩
  else
    match Fence.at? (c :: rest) with
    | some fence => ⟨.fence, Fence.width - 1, (.docString fence s.mark, .text), none⟩
    | none =>
      match Keyword.at? (c :: rest) with
      | some m => ⟨m.kind, m.length - 1, (s.mode, if m.kind.isHeader then .header else .step), none⟩
      | none => { s with shown := .text }.freeText c rest

/-- In a doc string only a fence of the sort that opens it means something, at the start of a line. -/
def docString (fence : Fence) : Cut (Mode × Shown) :=
  if s.shown = .nothing && fence.marker.isPrefixOf (c :: rest) then
    ⟨.fence, Fence.width - 1, (.plain, .text), none⟩
  else ⟨.text, (rest.takeWhile (!isLayout ·)).length, (s.mode, .text), none⟩

def plain : Cut (Mode × Shown) :=
  match s.shown with
  | .nothing => s.lineStart c rest
  | .header => ⟨.colon, 0, (s.mode, .text), none⟩
  | .step => if c = '#' then s.comment rest else s.freeText c rest
  | .sign =>
    if isTagChar c then ⟨.text, (rest.takeWhile isTagChar).length, (s.mode, .tags), none⟩
    else { s with shown := .tags }.tagLine c rest
  | .tags => s.tagLine c rest
  | .row => s.tableRow c rest
  | .text => s.freeText c rest

def look : Cut (Mode × Shown) :=
  match breakMore? c rest with
  | some more => ⟨.eol, more, (s.mode, .nothing), none⟩
  | none =>
    if isPad c then ⟨padKind c, 0, (s.mode, s.shown.behindPad), none⟩
    else
      match s.mode with
      | .docString fence _ => s.docString c rest fence
      | .plain => s.plain c rest

def step : Cut Scanner :=
  let found := s.look c rest
  let taken := c :: rest.take found.more
  ⟨found.kind, found.more,
    ⟨s.mark.advance found.kind taken, taken.getLast?, found.next.1, found.next.2⟩, found.openQuote⟩

def note? (cut : Cut Scanner) : Option ScanNote :=
  match s.mode, cut.next.mode with
  | .plain, .docString _ opened => some (.opened opened.position)
  | .docString _ _, .plain => some (.closed s.mark.position)
  | _, _ => cut.openQuote.map fun width => .reported ⟨.openString, s.mark, s.mark.offset + width⟩

/-- Scans a text from its first character that is not yet taken. The number counts characters that the
last lexeme has already taken. -/
def scan : Scanner → Nat → List Char → Stream
  | s, _, [] => ⟨[], s.mark, [], s.mode.report?⟩
  | s, n + 1, _ :: rest => scan s n rest
  | s, 0, c :: rest =>
    let cut := s.step c rest
    let behind := scan cut.next cut.more rest
    ⟨⟨cut.kind, c :: rest.take cut.more, s.mark⟩ :: behind.content, behind.stop,
      (s.note? cut).toList ++ behind.notes, behind.openDocString⟩

def start (text : List Char) : Scanner :=
  ⟨Stream.origin text, text.head?.filter (· = byteOrderMark), .plain, .nothing⟩

end Scanner

def Stream.ofText (text : List Char) : Stream :=
  (Scanner.start text).scan 0 (stripMark text)

end FeatureFile
