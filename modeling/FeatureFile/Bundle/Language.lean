namespace FeatureFile.Locale

structure Language where
  language : List Char
  script : Option (List Char)
  region : Option (List Char)
  variants : List (List Char)
  deriving DecidableEq, Repr

namespace Language

def isWord (subtag : List Char) : Bool :=
  subtag.all Char.isAlpha

def isLanguage (subtag : List Char) : Bool :=
  subtag.length ∈ [2, 3, 5, 6, 7, 8] && isWord subtag

def isScript (subtag : List Char) : Bool :=
  subtag.length = 4 && isWord subtag

def isRegion (subtag : List Char) : Bool :=
  (subtag.length = 2 && isWord subtag) || (subtag.length = 3 && subtag.all Char.isDigit)

def isPlain (c : Char) : Bool :=
  0 < c.toNat && c.toNat < 128

/-- Five to eight letters or digits, or four plain characters of which the first is a digit or the last
three are letters or digits. -/
def isVariant : List Char → Bool
  | [a, b, c, d] =>
    [a, b, c, d].all isPlain && (a.isDigit || [b, c, d].all Char.isAlphanum)
  | subtag => subtag.length ∈ [5, 6, 7, 8] && subtag.all Char.isAlphanum

def split : List Char → List (List Char)
  | [] => [[]]
  | c :: rest =>
    if c = '-' || c = '_' then [] :: split rest
    else match split rest with
      | [] => [[c]]
      | subtag :: more => (c :: subtag) :: more

def option? (wanted : List Char → Bool) : List (List Char) → Option (List Char) × List (List Char)
  | subtag :: rest => if wanted subtag then (some subtag, rest) else (none, subtag :: rest)
  | [] => (none, [])

def ofSubtags? : List (List Char) → Option Language
  | [] => none
  | language :: rest =>
    let (script, rest) := option? isScript rest
    let (region, rest) := option? isRegion rest
    if isLanguage language && rest.all isVariant then some ⟨language, script, region, rest⟩ else none

def read? (text : List Char) : Option Language :=
  ofSubtags? (split (text.map Char.toLower))

def readAll? : List (List Char) → Option (List Language)
  | [] => some []
  | text :: rest =>
    match read? text, readAll? rest with
    | some tag, some tags => some (tag :: tags)
    | _, _ => none

def capitalize : List Char → List Char
  | [] => []
  | c :: rest => c.toUpper :: rest

def code (l : Language) : String :=
  let subtags := l.language :: (l.script.map capitalize).toList ++
    (l.region.map (List.map Char.toUpper)).toList ++ l.variants
  "-".intercalate (subtags.map String.ofList)

def english : Language := ⟨['e', 'n'], none, some ['u', 's'], []⟩

def russian : Language := ⟨['r', 'u'], none, none, []⟩

/-- The language with texts that a request asks for; script and region make no difference. -/
def available? (request : Language) : Option Language :=
  [english, russian].find? (·.language = request.language)

def add (languages : List Language) (l : Language) : List Language :=
  if l ∈ languages then languages else languages ++ [l]

/-- The languages asked for, each once and in the order of the requests; English comes last if
nobody asks for it. -/
def select (requests : List Language) : List Language :=
  add ((requests.filterMap available?).foldl add []) english

end Language

end FeatureFile.Locale
