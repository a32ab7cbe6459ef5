import FeatureFile.Proofs.Descent.Sections

namespace FeatureFile

open Ahead

def Repetition.next : Repetition → List Token → Option (List Token)
  | trivia => Reader.skipTrivia.next
  | padding => Reader.padding.next
  | line => (Reader.bumpWhile .line Reader.isInline Reader.isInline_eof).next
  | tagLine => Reader.tagParts.next
  | tags => Reader.tags.next
  | docString => Reader.untilFence.next
  | description => Reader.description.next
  | rows => Reader.rows.next
  | steps => Reader.stepEntries.next
  | examples => Reader.examplesBelow.next
  | scenarios scope => (Reader.scenarioEntries scope).next
  | rules => Reader.ruleEntries.next
  | junk => Reader.junk.next

lemma Repetition.advances_of_mem_next (loop : Repetition) {left rest : List Token}
    (h : rest ∈ loop.next left) : Advances left rest := by
  cases loop <;> exact Loop.advances_of_next _ h

def Reader.IsNamed {α : Type} (x : Reader α) : Prop :=
  ∀ left, ∀ t ∈ x.turns left, t.after ∈ t.loop.next t.before

lemma Loop.isNamed_run {α : Type} {l : Loop α} (name : l.name.next = l.next) (body : l.body.IsNamed) :
    l.run.IsNamed := by
  intro left
  change ∀ t ∈ l.turnsAll left, _
  induction left using turnsAll.induct l with
  | case1 left goes ih =>
    rw [l.turnsAll_of_goes goes]
    refine List.forall_mem_append.mpr ⟨body left, List.forall_mem_cons.mpr ⟨?_, ih⟩⟩
    rw [name, next, if_pos goes]
    rfl
  | case2 left stops =>
    rw [l.turnsAll_of_stops (Bool.eq_false_iff.mpr stops)]
    exact List.forall_mem_nil _

namespace Reader

variable {α β : Type}

lemma isNamed_pure (a : α) : (pure a : Reader α).IsNamed :=
  fun _ => List.forall_mem_nil _

lemma isNamed_ask (look : List Token → α) : (ask look).IsNamed :=
  fun _ => List.forall_mem_nil _

lemma isNamed_bump : bump.IsNamed :=
  fun _ => List.forall_mem_nil _

lemma IsNamed.bind {x : Reader α} {f : α → Reader β} (first : x.IsNamed)
    (second : ∀ a, (f a).IsNamed) : (x >>= f).IsNamed := by
  intro left
  rw [turns_bind]
  exact List.forall_mem_append.mpr ⟨first left, second _ _⟩

lemma IsNamed.map {x : Reader α} (h : x.IsNamed) (f : α → β) :
    (x >>= fun a => pure (f a)).IsNamed :=
  h.bind fun _ => isNamed_pure _

lemma IsNamed.ite {x y : Reader α} {p : Prop} [Decidable p] (first : x.IsNamed)
    (second : y.IsNamed) : (if p then x else y).IsNamed := by
  split
  · exact first
  · exact second

lemma IsNamed.afterTrivia {x : Reader α} (h : x.IsNamed) : (afterTrivia x).IsNamed :=
  (Loop.isNamed_run rfl isNamed_bump).bind fun _ => h

lemma IsNamed.onlyIf {x : Reader (Option α)} (look : List Token → Bool) (h : x.IsNamed) :
    (onlyIf look x).IsNamed :=
  (isNamed_ask look).bind fun _ => h.ite (isNamed_pure none)

lemma isNamed_bumpIf (kind : TokenKind) : (bumpIf kind).IsNamed :=
  isNamed_bump.onlyIf _

lemma isNamed_restOfLine : restOfLine.IsNamed :=
  (Loop.isNamed_run rfl isNamed_bump).bind fun _ => (isNamed_bumpIf .eol).map _

lemma isNamed_line : line.IsNamed :=
  isNamed_bump.bind fun _ => isNamed_restOfLine.map _

lemma isNamed_nextLine : nextLine.IsNamed :=
  isNamed_line.afterTrivia

lemma isNamed_tagPart : tagPart.IsNamed :=
  isNamed_bump.bind fun _ => ((isNamed_bumpIf .text).map _).ite (isNamed_pure _)

lemma isNamed_tagLine : tagLine.IsNamed :=
  (Loop.isNamed_run rfl isNamed_tagPart).afterTrivia.bind fun _ => (isNamed_ask _).map _

lemma isNamed_tags : tags.run.IsNamed :=
  Loop.isNamed_run rfl isNamed_tagLine

lemma isNamed_description : description.run.IsNamed :=
  Loop.isNamed_run rfl isNamed_nextLine

lemma isNamed_rows : rows.run.IsNamed :=
  Loop.isNamed_run rfl isNamed_nextLine

lemma isNamed_untilFence : untilFence.run.IsNamed :=
  Loop.isNamed_run rfl isNamed_bump

lemma isNamed_finishLine : finishLine.IsNamed :=
  (Loop.isNamed_run rfl isNamed_bump).bind fun _ => isNamed_bumpIf .eol

lemma isNamed_closingFence : closingFence.IsNamed := by
  refine (isNamed_bumpIf .fence).bind fun found => ?_
  cases found with
  | none => exact isNamed_pure none
  | some fence => exact isNamed_finishLine.map _

lemma isNamed_docString : docString.IsNamed :=
  isNamed_nextLine.bind fun _ => isNamed_untilFence.bind fun _ => isNamed_closingFence.map _

lemma isNamed_strayDocString : strayDocString.IsNamed :=
  isNamed_bump.bind fun _ => isNamed_untilFence.bind fun _ => (isNamed_bumpIf .fence).map _

lemma isNamed_nextItem : nextItem.IsNamed :=
  IsNamed.afterTrivia <| (isNamed_ask current).bind fun _ =>
    (isNamed_strayDocString.map _).ite (isNamed_line.map _)

lemma isNamed_anchor : anchor.IsNamed :=
  (isNamed_ask place).afterTrivia

lemma isNamed_entry (begins : List Token → Bool) {member : Reader (Option α)}
    (h : member.IsNamed) : (entry begins member).IsNamed :=
  (isNamed_ask begins).bind fun _ => (h.map _).ite (isNamed_nextItem.map _)

lemma isNamed_step : step.IsNamed :=
  isNamed_nextLine.bind fun _ => (isNamed_docString.onlyIf _).bind fun _ => isNamed_rows.map _

lemma isNamed_steps : steps.IsNamed :=
  isNamed_anchor.bind fun _ => (Loop.isNamed_run rfl (isNamed_entry _ isNamed_step)).map _

lemma isNamed_heading : heading.IsNamed :=
  isNamed_tags.bind fun _ => isNamed_nextLine.bind fun _ => isNamed_description.map _

lemma isNamed_examples : examples.IsNamed :=
  isNamed_heading.bind fun _ => isNamed_rows.map _

lemma isNamed_scenario : scenario.IsNamed :=
  isNamed_heading.bind fun _ => isNamed_steps.bind fun _ =>
    (Loop.isNamed_run rfl isNamed_examples).map _

lemma isNamed_scenarios (scope : Scope) : (scenarios scope).IsNamed :=
  isNamed_anchor.bind fun _ => (Loop.isNamed_run rfl (isNamed_entry _ isNamed_scenario)).map _

lemma isNamed_background : background?.IsNamed :=
  IsNamed.onlyIf _ <| isNamed_nextLine.bind fun _ => isNamed_description.bind fun _ =>
    isNamed_steps.map _

lemma isNamed_rule : rule.IsNamed :=
  isNamed_heading.bind fun _ => isNamed_background.bind fun _ => (isNamed_scenarios .rule).map _

lemma isNamed_opening : opening.IsNamed :=
  IsNamed.afterTrivia <| (isNamed_ask missing?).bind fun _ =>
    (Loop.isNamed_run rfl isNamed_nextLine).bind fun _ => (isNamed_ask place).bind fun _ =>
      (isNamed_heading.onlyIf _).map _

lemma isNamed_content : content.IsNamed :=
  (isNamed_ask peekBehindTags).bind fun _ =>
    ((Loop.isNamed_run rfl (isNamed_entry _ isNamed_rule)).map _).ite
      ((isNamed_scenarios .feature).map _)

lemma isNamed_feature : feature.IsNamed :=
  isNamed_opening.bind fun _ => isNamed_anchor.bind fun _ => isNamed_background.bind fun _ =>
    isNamed_content.map _

end Reader

end FeatureFile
