namespace FeatureFile.Locale

abbrev Arguments := List (String × String)

def replace {Loader : Type} (loaders : Nat → Loader) (number : Nat) (loader : Loader) :
    Nat → Loader :=
  fun other => if other = number then loader else loaders other

theorem replace_of_ne {Loader : Type} {number other : Nat} (ne : other ≠ number)
    (loaders : Nat → Loader) (loader : Loader) :
    replace loaders number loader other = loaders other :=
  if_neg ne

/-- What is used of a library that loads messages. Its loaders go by number; a selection of languages is
handed all of them, and may fail. -/
structure Loading where
  Tag : Type
  Loader : Type
  Failure : Type
  english : Tag
  fresh : Loader
  select : Nat → List Tag → (Nat → Loader) → Except Failure (List Tag) × (Nat → Loader)
  languages : Loader → List Tag
  text : Loader → String → Arguments → String

/-- A selection changes no loader but the one it is made for. -/
structure Loading.IsLocal (L : Loading) : Prop where
  select_of_ne : ∀ number tags loaders other, other ≠ number →
    (L.select number tags loaders).2 other = loaders other

structure Wording where
  text : String → Arguments → String

end FeatureFile.Locale
