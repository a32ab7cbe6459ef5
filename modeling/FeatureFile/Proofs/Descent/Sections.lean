import FeatureFile.Proofs.Descent.Lines
import FeatureFile.Proofs.Document.Headers

namespace FeatureFile

namespace Reader

open Ahead

variable {α : Type}

def anchor : Reader Mark :=
  afterTrivia (ask place)

def entry (begins : List Token → Bool) (member : Reader (Option α)) :
    Reader (Option (Entry α)) := do
  if ← ask begins then return (← member).map .placed
  else return (← nextItem).map .stray

lemma advances_entry {member : Reader (Option α)} (begins : List Token → Bool)
    (advances : member.AdvancesWhen (peek · ≠ .eof)) :
    (entry begins member).AdvancesWhen (peek · ≠ .eof) := by
  intro left more
  rw [entry, read_bind, read_ask]
  split
  · exact advances.bind _ left more
  · exact advances_nextItem.bind _ left more

def step : Reader (Option Step) := do
  let first ← nextLine
  let block ← onlyIf (peek · = .fence) docString
  let table ← rows.run
  return first.map (⟨·, block, table.reduceOption⟩)

lemma advances_step : step.AdvancesWhen (peek · ≠ .eof) :=
  advances_nextLine.bind _

def stepEntries : Loop (Option (Entry Step)) where
  name := .steps
  goes left := (peek left).isBody
  body := entry (fun left => (peek left).isStep) step
  advances := (advances_entry _ advances_step).weaken fun left goes eof => by
    simp [eof, TokenKind.isBody] at goes

def steps : Reader Steps := do
  let anchor ← anchor
  let entries ← stepEntries.run
  return ⟨anchor, entries.reduceOption⟩

def heading : Reader (Option Heading) := do
  let tags ← tags.run
  let header ← nextLine
  let text ← description.run
  return header.map (⟨tags.reduceOption, ·, text.reduceOption⟩)

lemma advances_heading : heading.AdvancesWhen (peek · ≠ .eof) := by
  intro left more
  by_cases sign : peek left = .atSign
  · exact tags.advances_run.bind _ left (decide_eq_true sign)
  · have untagged : tags.run.read left = ([], left) :=
      tags.readAll_of_stops (decide_eq_false sign)
    rw [heading, read_bind, untagged]
    exact advances_nextLine.bind _ left more

def examples : Reader (Option Examples) := do
  let heading ← heading
  let table ← rows.run
  return heading.map (⟨·, table.reduceOption⟩)

def examplesBelow : Loop (Option Examples) where
  name := .examples
  goes left := (peekBehindTags left).isExamples
  body := examples
  advances := (advances_heading.bind _).weaken fun _ goes => peek_ne_eof fun eof => by
    simp [eof, TokenKind.isExamples] at goes

def scenario : Reader (Option Scenario) := do
  let heading ← heading
  let steps ← steps
  let examples ← examplesBelow.run
  return heading.map (⟨·, steps, examples.reduceOption⟩)

def scenarioEntries (scope : Scope) : Loop (Option (Entry Scenario)) where
  name := .scenarios scope
  goes left :=
    match peekBehindTags left with
    | .eof => peek left = .atSign
    | .header .rule => scope ≠ .rule
    | _ => true
  body := entry (fun left => (peekBehindTags left).isScenario) scenario
  advances := (advances_entry _ (advances_heading.bind _)).weaken fun left goes eof => by
    have none : peekBehindTags left = .eof := by
      by_contra more
      exact peek_ne_eof more eof
    simp [none, eof] at goes

def scenarios (scope : Scope) : Reader Scenarios := do
  let anchor ← anchor
  let entries ← (scenarioEntries scope).run
  return ⟨anchor, entries.reduceOption⟩

def background : Reader (Option Background) := do
  let header ← nextLine
  let text ← description.run
  let steps ← steps
  return header.map (⟨⟨[], ·, text.reduceOption⟩, steps⟩)

def background? : Reader (Option Background) :=
  onlyIf (peek · = .header .background) background

def rule : Reader (Option BusinessRule) := do
  let heading ← heading
  let background ← background?
  let scenarios ← scenarios .rule
  return heading.map (⟨·, background, scenarios⟩)

def ruleEntries : Loop (Option (Entry BusinessRule)) where
  name := .rules
  goes left := peekBehindTags left ≠ .eof
  body := entry (peekBehindTags · = .header .rule) rule
  advances := (advances_entry _ (advances_heading.bind _)).weaken fun _ goes =>
    peek_ne_eof (of_decide_eq_true goes)

def junk : Loop (Option Line) where
  name := .junk
  goes left := !Opening.endsJunk (peekBehindTags left)
  body := nextLine
  advances := advances_nextLine.weaken fun _ goes => peek_ne_eof fun eof => by
    simp [eof, Opening.endsJunk] at goes

def missing? (left : List Token) : Option MissingHeader :=
  if peekBehindTags left = .header .feature then none
  else (significant? left).map (⟨peekBehindTags left, ·⟩)

def opening : Reader Opening := afterTrivia do
  let missing ← ask missing?
  let junk ← junk.run
  let anchor ← ask place
  let heading ← onlyIf (peekBehindTags · = .header .feature) heading
  return ⟨missing, junk.reduceOption, heading, anchor⟩

def content : Reader Content := do
  if (← ask peekBehindTags) = .header .rule then
    return .rules (← ruleEntries.run).reduceOption
  else return .scenarios (← scenarios .feature)

def body (opening : Opening) : Reader Feature := do
  let anchor ← anchor
  let background ← background?
  let content ← content
  return ⟨opening, anchor, background, content⟩

def feature : Reader Feature := do
  let opening ← opening
  body opening

end Reader

end FeatureFile
