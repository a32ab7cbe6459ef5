import FeatureFile.Document.Line

namespace FeatureFile

/-- A doc string: the line with its opening fence, all tokens up to the closing one, and that fence
with the padding in front of it. -/
structure Block where
  opening : Line
  content : List Token
  closing : Option (List Token × Token)
  deriving DecidableEq, Repr

inductive Item where
  | line (line : Line)
  | block (block : Block)
  deriving DecidableEq, Repr

def Block.tokens (b : Block) : List Token :=
  b.opening.tokens ++ b.content ++
    match b.closing with
    | some (indent, fence) => indent ++ [fence]
    | none => []

namespace Item

def head : Item → Token
  | line l => l.head
  | block b => b.opening.head

def kind (i : Item) : TokenKind :=
  i.head.kind

def tokens : Item → List Token
  | line l => l.tokens
  | block b => b.tokens

def closing? (l : RawLine) : Option (List Token × Token × List Token) :=
  match l.content.dropWhile (·.kind.isPad) with
  | [] => none
  | t :: rest =>
    if t.kind = .fence then some (l.content.takeWhile (·.kind.isPad), t, rest) else none

def behindFence (rest : List Token) (ending : Option Token) : List Item :=
  match rest.dropWhile (·.kind.isPad) with
  | [] => []
  | t :: more => [line ⟨t, more, ending⟩]

/-- The items of a list of lines; the option is a doc string that is still open, with its content so
far. -/
def ofLines : Option (Line × List Token) → List RawLine → List Item
  | none, [] => []
  | some (opening, content), [] => [block ⟨opening, content, none⟩]
  | none, l :: rest =>
    match l.significant? with
    | none => ofLines none rest
    | some found =>
      if found.kind = .fence then ofLines (some (found, [])) rest
      else line found :: ofLines none rest
  | some (opening, content), l :: rest =>
    match closing? l with
    | none => ofLines (some (opening, content ++ l.tokens)) rest
    | some (indent, fence, more) =>
      block ⟨opening, content, some (indent, fence)⟩ ::
        (behindFence more l.ending ++ ofLines none rest)

theorem ofLines_cons_blank {l : RawLine} (rest : List RawLine) (blank : l.significant? = none) :
    ofLines none (l :: rest) = ofLines none rest := by
  rw [ofLines, blank]

theorem ofLines_cons_line {l : RawLine} {found : Line} (rest : List RawLine)
    (here : l.significant? = some found) (other : found.kind ≠ .fence) :
    ofLines none (l :: rest) = line found :: ofLines none rest := by
  rw [ofLines, here]
  exact if_neg other

theorem ofLines_some_eq_cons (opened : Line × List Token) (ls : List RawLine) :
    ∃ b items, ofLines (some opened) ls = block b :: items := by
  induction ls generalizing opened with
  | nil => exact ⟨_, _, rfl⟩
  | cons l rest ih =>
    rw [ofLines]
    split
    · exact ih _
    · exact ⟨_, _, rfl⟩

end Item

def TokenKind.isProse (k : TokenKind) : Bool :=
  !(k.isKeyword || k = .atSign || k = .pipe || k = .fence || k = .eof)

def TokenKind.isBody (k : TokenKind) : Bool :=
  !(k.isHeader || k = .atSign || k = .eof)

namespace Item

def takeLines (wanted : TokenKind → Bool) : List Item → List Line × List Item
  | line l :: rest =>
    if wanted l.kind then (l :: (takeLines wanted rest).1, (takeLines wanted rest).2)
    else ([], line l :: rest)
  | items => ([], items)

theorem length_takeLines (wanted : TokenKind → Bool) (items : List Item) :
    (takeLines wanted items).1.length + (takeLines wanted items).2.length = items.length := by
  induction items with
  | nil => simp [takeLines]
  | cons i rest ih =>
    cases i with
    | block b => simp [takeLines]
    | line l => by_cases h : wanted l.kind <;> simp [takeLines, h]; omega

theorem length_takeLines_le (wanted : TokenKind → Bool) (items : List Item) :
    (takeLines wanted items).2.length ≤ items.length := by
  have := length_takeLines wanted items
  omega

def startOf (eof : Mark) : List Item → Mark
  | [] => eof
  | i :: _ => i.head.start

end Item

end FeatureFile
