import FeatureFile.Bundle.Texts
import FeatureFile.Journal
import FeatureFile.Runtime

namespace FeatureFile

open FeatureFile.Locale

abbrev Session := Runtime bundled

/-- A diagnostic that is not the product of a parse. The severity of its fault holds where none is
given, and the languages in force where none are asked for. -/
structure Session.Draft where
  fault : Fault
  severity : Option Severity
  position : Position
  tags : Option (List (List Char))

inductive Session.Command where
  | force (warn : Option Bool)
  | inherit (value : Option (List UInt8))
  | options
  | parse (warn : Option Bool) (text : List Char)
  | openScope (tags : List (List Char))
  | dropScope (number : Nat)
  | choose (tags : List (List Char))
  | languages
  | message (id : String) (arguments : Arguments)
  | severities
  | diagnostic (draft : Session.Draft)

inductive Session.Reply where
  | warn (value : Bool)
  | options (current initial : Options)
  | parsed (result : Parsed)
  | scope (number : Nat)
  | languages (languages : List Language)
  | chosen (languages : List Language)
  | message (text : String)
  | severities (error warning : String)
  | diagnostic (diagnostic : Diagnostic) (languages : List Language)
  | badTag
  | noScope

def Session.Draft.diagnostic (d : Session.Draft) : Diagnostic :=
  ⟨d.fault, d.severity.getD d.fault.severity, ⟨0, d.position⟩, 0⟩

namespace Session

def initial : Session := Runtime.initial bundled

def parseWith (s : Session) (warn : Option Bool) (text : List Char) : Parsed :=
  Runtime.parseWith s warn text

def languagesInForce (s : Session) : List Language :=
  s.locale.languages

def run (s : Session) (c : Runtime.Command bundled) : Session :=
  Runtime.step s c

def withSettings (s : Session) (c : Runtime.Command bundled) : Session × Reply :=
  (s.run c, .warn (s.run c).settings.warnUnevenTables)

def openTags (s : Session) (tags : List (List Char)) : Session × Reply :=
  match Language.readAll? tags with
  | some requests =>
    (s.run (.locale (.openScope requests)),
      match (s.locale.openScope requests).2 with
      | .ok number => .scope number
      | .error failure => failure.elim)
  | none => (s, .badTag)

def chooseTags (s : Session) (tags : List (List Char)) : Session × Reply :=
  match Language.readAll? tags with
  | some requests =>
    (s.run (.locale (.choose requests)),
      match (s.locale.choose requests).2 with
      | .ok languages => .chosen languages
      | .error failure => failure.elim)
  | none => (s, .badTag)

def drop (s : Session) (number : Nat) : Session × Reply :=
  let dropped := s.run (.locale (.dropScope number))
  (dropped, if s.locale.isOpen number then .languages dropped.languagesInForce else .noScope)

def languagesFor? (s : Session) (tags : Option (List (List Char))) : Option (List Language) :=
  match tags with
  | some tags => (Language.readAll? tags).map Language.select
  | none => some s.languagesInForce

def draw (s : Session) (d : Draft) : Session × Reply :=
  match s.languagesFor? d.tags with
  | some languages => (s, .diagnostic d.diagnostic languages)
  | none => (s, .badTag)

def step (s : Session) : Command → Session × Reply
  | .force warn => s.withSettings (.force warn)
  | .inherit value => s.withSettings (.inherit value)
  | .options => (s, .options s.settings.options .default)
  | .parse warn text => (s, .parsed (s.parseWith warn text))
  | .openScope tags => s.openTags tags
  | .dropScope number => s.drop number
  | .choose tags => s.chooseTags tags
  | .languages => (s, .languages s.languagesInForce)
  | .message id arguments => (s, .message (s.locale.wording.text id arguments))
  | .severities =>
    (s, .severities (Severity.error.render s.locale.wording)
      (Severity.warning.render s.locale.wording))
  | .diagnostic draft => s.draw draft

end Session

end FeatureFile
