import FeatureFile.Runtime
import Mathlib.Tactic.Lemma

namespace FeatureFile

namespace Locale.State

variable {L : Loading}

def after (s : State L) (cs : List (Command L)) : State L :=
  cs.foldl step s

def isIdle (s : State L) : Bool :=
  s.guards.all Option.isNone

def isInnermost (s : State L) (number : Nat) : Bool :=
  s.isOpen number && (s.guards.drop (number + 1)).all Option.isNone

def keepsOrder (s : State L) : Command L → Bool
  | .dropScope number => s.isInnermost number
  | _ => true

/-- Scopes are dropped in the reverse of the order in which they are opened. -/
def isOrderly (s : State L) : List (Command L) → Bool
  | [] => true
  | c :: cs => s.keepsOrder c && (s.step c).isOrderly cs

variable {s : State L} {n : Nat} {g : Guard}

lemma after_append (s : State L) (cs cs' : List (Command L)) :
    s.after (cs ++ cs') = (s.after cs).after cs' :=
  List.foldl_append

lemma isOrderly_append (s : State L) (cs cs' : List (Command L)) :
    s.isOrderly (cs ++ cs') = (s.isOrderly cs && (s.after cs).isOrderly cs') := by
  induction cs generalizing s with
  | nil => rfl
  | cons c cs ih =>
    change (s.keepsOrder c && (s.step c).isOrderly (cs ++ cs')) = _
    rw [ih, ← Bool.and_assoc]
    rfl

lemma isOpen_iff : s.isOpen n ↔ ∃ g, s.guards[n]? = some (some g) := by
  rw [isOpen, Option.isSome_iff_exists]
  apply exists_congr
  intro g
  rw [Option.join_eq_some_iff]

lemma isOpen_congr {t : State L} (same : t.guards[n]? = s.guards[n]?) :
    t.isOpen n = s.isOpen n := by
  rw [isOpen, isOpen, same]

lemma all_isNone_iff {guards : List (Option Guard)} :
    guards.all Option.isNone ↔ ∀ n : Nat, guards[n]?.join.isSome = false := by
  rw [List.all_eq_true]
  constructor
  · intro closed n
    cases here : guards[n]? with
    | none => rfl
    | some x => simpa using closed x (List.mem_of_getElem? here)
  · intro closed x hx
    obtain ⟨n, here⟩ := List.mem_iff_getElem?.mp hx
    have none := closed n
    rw [here] at none
    simpa using none

lemma isIdle_iff : s.isIdle ↔ ∀ n, s.isOpen n = false :=
  all_isNone_iff

lemma isInnermost_iff :
    s.isInnermost n ↔ s.isOpen n ∧ ∀ later, n < later → s.isOpen later = false := by
  rw [isInnermost, Bool.and_eq_true, all_isNone_iff]
  apply and_congr_right
  intro _
  simp only [List.getElem?_drop]
  constructor
  · intro closed later beyond
    have none := closed (later - (n + 1))
    rwa [show n + 1 + (later - (n + 1)) = later by omega] at none
  · exact fun closed k => closed (n + 1 + k) (by omega)

lemma openScope_cases (s : State L) (tags : List L.Tag) :
    ∃ loaders, loaders = (L.select s.created tags (replace s.loaders s.created L.fresh)).2 ∧
      (((s.openScope tags).2 = .ok s.guards.length ∧ (s.openScope tags).1 =
          ⟨loaders, s.created + 1, some s.created, s.guards ++ [some ⟨s.override⟩]⟩) ∨
        (∃ failure, (s.openScope tags).2 = .error failure ∧
          (s.openScope tags).1 = ⟨loaders, s.created + 1, s.override, s.guards⟩)) := by
  refine ⟨_, rfl, ?_⟩
  cases selected : (L.select s.created tags (replace s.loaders s.created L.fresh)).1 with
  | ok => exact .inl (by simp [openScope, selected])
  | error failure => exact .inr ⟨failure, by simp [openScope, selected]⟩

lemma step_dropScope (here : s.guards[n]? = some (some g)) :
    s.step (.dropScope n) =
      ⟨s.loaders, s.created, g.displaced, s.guards.set n none⟩ := by
  rw [step, dropScope?, here, Option.getD_some]

lemma step_dropScope_of_closed (closed : s.isOpen n = false) : s.step (.dropScope n) = s := by
  rw [step, dropScope?]
  split
  next g here => rw [isOpen, here] at closed; cases closed
  next => rfl

lemma guards_openScope (s : State L) (tags : List L.Tag) :
    (s.openScope tags).1.guards = s.guards ∨
      (s.openScope tags).1.guards = s.guards ++ [some ⟨s.override⟩] := by
  obtain ⟨loaders, -, ⟨-, opened⟩ | ⟨failure, -, failed⟩⟩ := s.openScope_cases tags
  · exact .inr (by rw [opened])
  · exact .inl (by rw [failed])

lemma guard_of_openScope {tags : List L.Tag}
    (here : (s.openScope tags).1.guards[n]? = some (some g)) :
    s.guards[n]? = some (some g) ∨ s.guards.length = n ∧ g = ⟨s.override⟩ := by
  rcases s.guards_openScope tags with same | more
  · rw [same] at here
    exact .inl here
  · rw [more] at here
    have bound := (List.getElem?_eq_some_iff.mp here).1
    rw [List.getElem?_append] at here
    rw [List.length_append, List.length_singleton] at bound
    split at here
    · exact .inl here
    · have same := List.mem_singleton.mp (List.mem_of_getElem? here)
      exact .inr ⟨by omega, Option.some.inj same⟩

lemma isOpen_step_eq_false (c : Command L) (known : n < s.guards.length)
    (closed : s.isOpen n = false) :
    n < (s.step c).guards.length ∧ (s.step c).isOpen n = false := by
  cases c with
  | openScope tags =>
    rcases s.guards_openScope tags with same | more
    · rw [step, isOpen, same]
      exact ⟨known, closed⟩
    · rw [step, isOpen, more, List.getElem?_append_left known, List.length_append]
      exact ⟨by omega, closed⟩
  | languages | message | choose => exact ⟨known, closed⟩
  | dropScope k =>
    cases here : s.isOpen k with
    | false => rw [step_dropScope_of_closed here]; exact ⟨known, closed⟩
    | true =>
      obtain ⟨g, here⟩ := isOpen_iff.mp here
      rw [step_dropScope here, isOpen]
      refine ⟨by simpa using known, ?_⟩
      rw [List.getElem?_set]
      split
      next same => simp [same, known]
      next => exact closed

lemma isOpen_after_eq_false (cs : List (Command L)) (known : n < s.guards.length)
    (closed : s.isOpen n = false) : (s.after cs).isOpen n = false := by
  induction cs generalizing s with
  | nil => exact closed
  | cons c cs ih =>
    obtain ⟨known, closed⟩ := isOpen_step_eq_false c known closed
    exact ih known closed

structure IsSound (s : State L) : Prop where
  created : 0 < s.created
  override : ∀ number ∈ s.override, number < s.created
  displaced : ∀ g, some g ∈ s.guards → ∀ number ∈ g.displaced, number < s.created

lemma isSound_initial (L : Loading) : (initial L).IsSound where
  created := Nat.one_pos
  override := by simp [initial]
  displaced := by simp [initial]

namespace IsSound

lemma active_lt (h : s.IsSound) : s.active < s.created := by
  rw [active]
  cases held : s.override with
  | none => exact h.created
  | some number => exact h.override number held

lemma openScope (h : s.IsSound) (tags : List L.Tag) : (s.openScope tags).1.IsSound := by
  have older (o : Option Nat) (known : ∀ number ∈ o, number < s.created) :
      ∀ number ∈ o, number < s.created + 1 :=
    fun number hn => Nat.lt_succ_of_lt (known number hn)
  obtain ⟨loaders, -, ⟨-, opened⟩ | ⟨failure, -, failed⟩⟩ := s.openScope_cases tags
  · rw [opened]
    refine ⟨Nat.succ_pos _, by simp, fun g hg => ?_⟩
    rcases List.mem_append.mp hg with hg | hg
    · exact older _ (h.displaced g hg)
    · obtain rfl := Option.some.inj (List.mem_singleton.mp hg)
      exact older _ h.override
  · rw [failed]
    exact ⟨Nat.succ_pos _, older _ h.override, fun g hg => older _ (h.displaced g hg)⟩

lemma step (h : s.IsSound) (c : Command L) : (s.step c).IsSound := by
  cases c with
  | openScope tags => exact h.openScope tags
  | choose tags => exact ⟨h.created, h.override, h.displaced⟩
  | languages | message => exact h
  | dropScope n =>
    cases here : s.isOpen n with
    | false => rwa [step_dropScope_of_closed here]
    | true =>
      obtain ⟨g, here⟩ := isOpen_iff.mp here
      rw [step_dropScope here]
      refine ⟨h.created, h.displaced g (List.mem_of_getElem? here), fun g' hg' => ?_⟩
      rcases List.mem_or_eq_of_mem_set hg' with hg' | same
      · exact h.displaced g' hg'
      · cases same

lemma after (h : s.IsSound) (cs : List (Command L)) : (s.after cs).IsSound := by
  induction cs generalizing s with
  | nil => exact h
  | cons c cs ih => exact ih (h.step c)

end IsSound

end Locale.State

namespace Runtime

open FeatureFile.Locale

variable {L : Loading}

def after (s : Runtime L) (cs : List (Command L)) : Runtime L :=
  cs.foldl step s

def IsReachable (s : Runtime L) : Prop :=
  ∃ cs, s = (initial L).after cs

def Command.locale? : Command L → Option (Locale.Command L)
  | .locale c => some c
  | _ => none

lemma locale_after (s : Runtime L) (cs : List (Command L)) :
    (s.after cs).locale = s.locale.after (cs.filterMap Command.locale?) := by
  induction cs generalizing s with
  | nil => rfl
  | cons c cs ih =>
    change ((s.step c).after cs).locale = _
    rw [ih]
    cases c <;> rfl

lemma IsReachable.isSound {s : Runtime L} (h : s.IsReachable) : s.locale.IsSound := by
  obtain ⟨cs, rfl⟩ := h
  rw [locale_after]
  exact (State.isSound_initial L).after _

end Runtime

end FeatureFile
