import FeatureFile.Locale.Scope
import FeatureFile.Settings

namespace FeatureFile

open FeatureFile.Locale

structure Runtime (L : Loading) where
  settings : Settings
  locale : State L

namespace Runtime

inductive Command (L : Loading) where
  | force (warn : Option Bool)
  | inherit (value : Option (List UInt8))
  | parse (warn : Option Bool) (text : List Char)
  | locale (command : Locale.Command L)

def readVariable (value : Option (List UInt8)) : Option (List Char) :=
  value.bind fun bytes => (Text.Utf8.decode bytes).toOption

variable {L : Loading}

def initial (L : Loading) : Runtime L := ⟨.initial, .initial L⟩

def parseWith (s : Runtime L) (warn : Option Bool) (text : List Char) : Parsed :=
  FeatureFile.parse ((warn.map Options.mk).getD s.settings.options) text

/-- A parse finds settings and languages as they are and leaves them so. -/
def step (s : Runtime L) : Command L → Runtime L
  | .force warn => { s with settings := ⟨warn, s.settings.inherited⟩ }
  | .inherit value => { s with settings := ⟨s.settings.forced, readVariable value⟩ }
  | .parse _ _ => s
  | .locale command => { s with locale := s.locale.step command }

end Runtime

end FeatureFile
