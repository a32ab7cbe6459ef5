import FeatureFile.Parse
import FeatureFile.Text.Blank

namespace FeatureFile

structure Settings where
  forced : Option Bool
  inherited : Option (List Char)
  deriving DecidableEq, Repr

def switch? (text : List Char) : Option Bool :=
  let word := String.ofList ((Text.trim Text.isBlank text).map Char.toLower)
  if word ∈ ["1", "true", "yes", "on"] then some true
  else if word ∈ ["0", "false", "no", "off"] then some false
  else none

namespace Settings

def initial : Settings := ⟨none, none⟩

def warnUnevenTables (s : Settings) : Bool :=
  (s.forced.or (s.inherited.bind switch?)).getD false

def options (s : Settings) : Options :=
  ⟨s.warnUnevenTables⟩

end Settings

def Options.default : Options := ⟨false⟩

end FeatureFile
