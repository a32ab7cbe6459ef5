import Mathlib.Data.List.DropRight
import Mathlib.Data.List.TakeWhile
import FeatureFile.Document.Feature
import FeatureFile.Proofs.Descent.Reader

namespace FeatureFile

namespace Ahead

def current (left : List Token) : TokenKind :=
  (left.head?.map Token.kind).getD .eof

def significant? (left : List Token) : Option Token :=
  left.find? (!·.kind.isTrivia)

def peek (left : List Token) : TokenKind :=
  ((significant? left).map Token.kind).getD .eof

def kindOffTags : Bool → List Token → TokenKind
  | _, [] => .eof
  | tagged, t :: rest =>
    if t.kind = .eol then kindOffTags false rest
    else if t.kind = .atSign then kindOffTags true rest
    else if tagged || t.kind.isTrivia then kindOffTags tagged rest
    else t.kind

def peekBehindTags (left : List Token) : TokenKind :=
  kindOffTags false left

def place (left : List Token) : Mark :=
  (left.head?.map Token.start).getD ⟨0, .start⟩

variable {left : List Token}

lemma significant?_eq (left : List Token) :
    significant? left = (left.dropWhile (·.kind.isTrivia)).head? := by
  have first := List.find?_eq_head?_dropWhile_not (fun t : Token => !t.kind.isTrivia) left
  simp only [Bool.not_not] at first
  rw [significant?, first]

lemma peek_eq_current (left : List Token) :
    peek left = current (left.dropWhile (·.kind.isTrivia)) := by
  rw [peek, significant?_eq, current]

lemma peekBehindTags_dropWhile (left : List Token) :
    peekBehindTags (left.dropWhile (·.kind.isTrivia)) = peekBehindTags left := by
  rw [peekBehindTags, peekBehindTags]
  induction left with
  | nil => rfl
  | cons t rest ih =>
    cases trivia : t.kind.isTrivia with
    | false => rw [List.dropWhile_cons_of_neg (by simp [trivia])]
    | true =>
      have sign : t.kind ≠ .atSign := by
        intro sign
        rw [sign] at trivia
        cases trivia
      rw [List.dropWhile_cons_of_pos (by exact trivia), ih, kindOffTags, if_neg sign, trivia]
      simp

lemma peek_ne_eof (more : peekBehindTags left ≠ .eof) : peek left ≠ .eof := by
  rw [← peekBehindTags_dropWhile] at more
  rw [peek_eq_current]
  intro eof
  generalize left.dropWhile (·.kind.isTrivia) = rest at more eof
  cases rest with
  | nil => exact more rfl
  | cons t rest =>
    have kind : t.kind = .eof := eof
    simp [peekBehindTags, kindOffTags, kind, TokenKind.isTrivia] at more

end Ahead

open Ahead

namespace Reader

lemma advances_bump : bump.AdvancesWhen (current · ≠ .eof) := by
  intro left more
  cases left with
  | nil => exact absurd rfl more
  | cons t rest =>
    have inner : t.kind ≠ .eof := more
    have read : bump.read (t :: rest) = (some t, rest) := if_neg inner
    rw [read]
    exact ⟨⟨[t], rfl, by simpa using inner⟩, by simp⟩

def bumpWhile (name : Repetition) (kinds : TokenKind → Bool) (inner : kinds .eof = false) :
    Loop (Option Token) where
  name := name
  goes left := kinds (current left)
  body := bump
  advances left goes := advances_bump left fun eof => by
    simp [eof, inner] at goes

lemma read_bumpWhile (name : Repetition) {kinds : TokenKind → Bool} (inner : kinds .eof = false)
    (left : List Token) :
    (bumpWhile name kinds inner).run.read left =
      ((left.takeWhile (kinds ·.kind)).map some, left.dropWhile (kinds ·.kind)) := by
  change (bumpWhile name kinds inner).readAll left = _
  induction left with
  | nil => exact Loop.readAll_of_stops _ inner
  | cons t rest ih =>
    cases goes : kinds t.kind with
    | false =>
      rw [Loop.readAll_of_stops _ (by exact goes), List.takeWhile_cons_of_neg (by simp [goes]),
        List.dropWhile_cons_of_neg (by simp [goes])]
      rfl
    | true =>
      have more : t.kind ≠ .eof := by
        intro eof
        rw [eof, inner] at goes
        cases goes
      have read : (bumpWhile name kinds inner).body.read (t :: rest) = (some t, rest) := if_neg more
      rw [Loop.readAll_of_goes _ (by exact goes), List.takeWhile_cons_of_pos (by exact goes),
        List.dropWhile_cons_of_pos (by exact goes), read, ih]
      rfl

def skipTrivia : Loop (Option Token) :=
  bumpWhile .trivia TokenKind.isTrivia (by decide)

lemma read_skipTrivia (left : List Token) :
    (skipTrivia.run.read left).2 = left.dropWhile (·.kind.isTrivia) := by
  rw [skipTrivia, read_bumpWhile]

def afterTrivia {α : Type} (x : Reader α) : Reader α := do
  let _ ← skipTrivia.run
  x

lemma read_afterTrivia {α : Type} (x : Reader α) (left : List Token) :
    (afterTrivia x).read left = x.read (left.dropWhile (·.kind.isTrivia)) := by
  rw [afterTrivia, read_bind, read_skipTrivia]

lemma advances_afterTrivia {α : Type} {x : Reader α} {p : TokenKind → Prop}
    (advances : x.AdvancesWhen (p <| current ·)) : (afterTrivia x).AdvancesWhen (p <| peek ·) := by
  intro left here
  have skipped := skipTrivia.run.takes left
  rw [read_skipTrivia] at skipped
  rw [peek_eq_current] at here
  rw [read_afterTrivia]
  exact skipped.trans_advances (advances _ here)

def isInline (k : TokenKind) : Bool :=
  k ≠ .eol && k ≠ .eof

lemma isInline_eof : isInline .eof = false :=
  rfl

def onlyIf {α : Type} (look : List Token → Bool) (x : Reader (Option α)) : Reader (Option α) := do
  if ← ask look then x else return none

def bumpIf (kind : TokenKind) : Reader (Option Token) :=
  onlyIf (current · = kind) bump

def restOfLine : Reader (List Token × Option Token) := do
  let content ← (bumpWhile .line isInline isInline_eof).run
  let ending ← bumpIf .eol
  return (content.reduceOption, ending)

def line : Reader (Option Line) := do
  let head ← bump
  let (tail, ending) ← restOfLine
  return head.map (⟨·, tail, ending⟩)

lemma advances_line : line.AdvancesWhen (current · ≠ .eof) :=
  advances_bump.bind _

def nextLine : Reader (Option Line) :=
  afterTrivia line

lemma advances_nextLine : nextLine.AdvancesWhen (peek · ≠ .eof) :=
  advances_afterTrivia (p := (· ≠ .eof)) advances_line

def linesWhile (name : Repetition) (kinds : TokenKind → Bool) (inner : kinds .eof = false) :
    Loop (Option Line) where
  name := name
  goes left := kinds (peek left)
  body := nextLine
  advances left goes := advances_nextLine left fun eof => by
    simp [eof, inner] at goes

def tagPart : Reader (List Token) := do
  let first ← bump
  if first.any (·.kind = .atSign) then return first.toList ++ (← bumpIf .text).toList
  else return first.toList

def tagParts : Loop (List Token) where
  name := .tagLine
  goes left := isInline (current left)
  body := tagPart
  advances := advances_bump.weaken (fun left goes eof => by simp [eof, isInline] at goes) |>.bind _

def tagLine : Reader (Option Line) := do
  let parts ← afterTrivia tagParts.run
  let ending ← ask fun left => left.head?.filter (·.kind = .eol)
  return parts.flatten.head?.map (⟨·, parts.flatten.tail, ending⟩)

lemma advances_tagLine : tagLine.AdvancesWhen (isInline <| peek ·) :=
  (advances_afterTrivia (p := (isInline ·)) tagParts.advances_run).bind _

def tags : Loop (Option Line) where
  name := .tags
  goes left := peek left = .atSign
  body := tagLine
  advances := advances_tagLine.weaken fun _ goes => by simp [of_decide_eq_true goes, isInline]

def description : Loop (Option Line) :=
  linesWhile .description TokenKind.isProse (by decide)

def rows : Loop (Option Line) :=
  linesWhile .rows (· = .pipe) (by decide)

def untilFence : Loop (Option Token) :=
  bumpWhile .docString (fun k => k ≠ .fence && k ≠ .eof) (by decide)

def padding : Loop (Option Token) :=
  bumpWhile .padding TokenKind.isPad (by decide)

def finishLine : Reader (Option Token) := do
  let _ ← padding.run
  bumpIf .eol

end Reader

def Block.enclose (opening : Line) (inner : List Token) : Option Token → Block
  | none => ⟨opening, inner, none⟩
  | some fence => ⟨opening, inner.rdropWhile (·.kind.isPad),
      some (inner.rtakeWhile (·.kind.isPad), fence)⟩

def Block.ofFence (fence : Token) (inner : List Token) (closing : Option Token) : Block :=
  let below := inner.dropWhile (Reader.isInline ·.kind)
  enclose ⟨fence, inner.takeWhile (Reader.isInline ·.kind), below.head?⟩ below.tail closing

namespace Reader

def closingFence : Reader (Option Token) := do
  match ← bumpIf .fence with
  | none => return none
  | some fence => do
    let _ ← finishLine
    return some fence

def docString : Reader (Option Block) := do
  let opening ← nextLine
  let content ← untilFence.run
  let closing ← closingFence
  return opening.map (Block.enclose · content.reduceOption closing)

def strayDocString : Reader (Option Block) := do
  let fence ← bump
  let inner ← untilFence.run
  let closing ← bumpIf .fence
  return fence.map (Block.ofFence · inner.reduceOption closing)

lemma advances_strayDocString : strayDocString.AdvancesWhen (current · ≠ .eof) :=
  advances_bump.bind _

def item : Reader (Option Item) := do
  if (← ask current) = .fence then return (← strayDocString).map .block
  else return (← line).map .line

lemma advances_item : item.AdvancesWhen (current · ≠ .eof) := by
  intro left more
  rw [item, read_bind, read_ask]
  split
  · exact advances_strayDocString.bind _ left more
  · exact advances_line.bind _ left more

def nextItem : Reader (Option Item) :=
  afterTrivia item

lemma advances_nextItem : nextItem.AdvancesWhen (peek · ≠ .eof) :=
  advances_afterTrivia (p := (· ≠ .eof)) advances_item

end Reader

end FeatureFile
