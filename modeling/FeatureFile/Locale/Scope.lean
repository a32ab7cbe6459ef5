import FeatureFile.Locale.Loading

namespace FeatureFile.Locale

structure Guard where
  displaced : Option Nat
  deriving DecidableEq, Repr

/-- Which loaders there are, and which of them is used: that of the process, which is number 0, or
that of a scope. `guards` has an entry for each scope ever opened, empty once it is dropped. -/
structure State (L : Loading) where
  loaders : Nat → L.Loader
  created : Nat
  override : Option Nat
  guards : List (Option Guard)

namespace State

variable {L : Loading}

def initial (L : Loading) : State L :=
  ⟨(L.select 0 [L.english] fun _ => L.fresh).2, 1, none, []⟩

def active (s : State L) : Nat :=
  s.override.getD 0

def languages (s : State L) : List L.Tag :=
  L.languages (s.loaders s.active)

def wording (s : State L) : Wording :=
  ⟨L.text (s.loaders s.active)⟩

def choose (s : State L) (tags : List L.Tag) : State L × Except L.Failure (List L.Tag) :=
  let selection := L.select s.active tags s.loaders
  ({ s with loaders := selection.2 }, selection.1)

def openScope (s : State L) (tags : List L.Tag) : State L × Except L.Failure Nat :=
  let selection := L.select s.created tags (replace s.loaders s.created L.fresh)
  match selection.1 with
  | .error failure =>
    ({ s with loaders := selection.2, created := s.created + 1 }, .error failure)
  | .ok _ =>
    (⟨selection.2, s.created + 1, some s.created, s.guards ++ [some ⟨s.override⟩]⟩,
      .ok s.guards.length)

def isOpen (s : State L) (number : Nat) : Bool :=
  s.guards[number]?.join.isSome

/-- Puts back what the scope displaced, whichever scope is in force by now. -/
def dropScope? (s : State L) (number : Nat) : Option (State L) :=
  match s.guards[number]? with
  | some (some guard) =>
    some { s with override := guard.displaced, guards := s.guards.set number none }
  | _ => none

end State

inductive Command (L : Loading) where
  | openScope (tags : List L.Tag)
  | dropScope (number : Nat)
  | choose (tags : List L.Tag)
  | languages
  | message (id : String) (arguments : Arguments)

def State.step {L : Loading} (s : State L) : Command L → State L
  | .openScope tags => (s.openScope tags).1
  | .dropScope number => (s.dropScope? number).getD s
  | .choose tags => (s.choose tags).1
  | .languages | .message _ _ => s

end FeatureFile.Locale
