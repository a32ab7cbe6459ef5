import FeatureFile.Proofs.Locale.Runs

namespace FeatureFile

namespace Locale.State

variable {L : Loading}

def IsNewer (outer : State L) (loader : Option Nat) : Prop :=
  ∃ number ∈ loader, outer.created ≤ number

structure Inside (outer s : State L) : Prop where
  created : outer.created ≤ s.created
  override : outer.IsNewer s.override
  older : ∀ n < outer.guards.length, s.guards[n]? = outer.guards[n]?
  first : s.guards[outer.guards.length]? = some (some ⟨outer.override⟩)
  later : ∀ n g, outer.guards.length < n → s.guards[n]? = some (some g) →
    outer.IsNewer g.displaced

structure Behind (outer s : State L) : Prop where
  override : s.override = outer.override
  older : ∀ n < outer.guards.length, s.guards[n]? = outer.guards[n]?
  known : outer.guards.length < s.guards.length
  closed : ∀ n, outer.guards.length ≤ n → s.isOpen n = false

variable {outer s : State L} {c : Command L} {cs : List (Command L)} {tags : List L.Tag} {n : Nat}
  {g : Guard}

lemma inside_openScope (opened : (outer.openScope tags).2 = .ok n) :
    n = outer.guards.length ∧ Inside outer (outer.openScope tags).1 := by
  obtain ⟨loaders, -, ⟨same, next⟩ | ⟨failure, failed, -⟩⟩ := outer.openScope_cases tags
  · rw [opened] at same
    refine ⟨Except.ok.inj same, ?_⟩
    have later (n : Nat) (g : Guard) (beyond : outer.guards.length < n)
        (here : (outer.openScope tags).1.guards[n]? = some (some g)) : outer.IsNewer g.displaced := by
      rcases guard_of_openScope here with old | ⟨rfl, -⟩
      · have bound := (List.getElem?_eq_some_iff.mp old).1
        omega
      · omega
    rw [next] at later ⊢
    exact ⟨Nat.le_succ _, ⟨_, rfl, Nat.le_refl _⟩, fun n known => List.getElem?_append_left known,
      List.getElem?_concat_length, later⟩
  · rw [opened] at failed
    cases failed

namespace Inside

lemma known (h : Inside outer s) : outer.guards.length < s.guards.length :=
  (List.getElem?_eq_some_iff.mp h.first).1

lemma isOpen (h : Inside outer s) : s.isOpen outer.guards.length :=
  isOpen_iff.mpr ⟨_, h.first⟩

lemma active_ge (h : Inside outer s) : outer.created ≤ s.active := by
  obtain ⟨number, held, newer⟩ := h.override
  rwa [active, Option.mem_def.mp held]

lemma openScope (h : Inside outer s) (tags : List L.Tag) : Inside outer (s.openScope tags).1 := by
  have more := Nat.le_succ_of_le h.created
  have later (n : Nat) (g : Guard) (beyond : outer.guards.length < n)
      (here : (s.openScope tags).1.guards[n]? = some (some g)) : outer.IsNewer g.displaced := by
    rcases guard_of_openScope here with old | ⟨-, rfl⟩
    · exact h.later n g beyond old
    · exact h.override
  obtain ⟨loaders, -, ⟨-, opened⟩ | ⟨failure, -, failed⟩⟩ := s.openScope_cases tags
  · rw [opened] at later ⊢
    refine ⟨more, ⟨_, rfl, h.created⟩, fun n known => ?_, ?_, later⟩
    · exact (List.getElem?_append_left (Nat.lt_trans known h.known)).trans (h.older n known)
    · exact (List.getElem?_append_left h.known).trans h.first
  · rw [failed]
    exact ⟨more, h.override, h.older, h.first, h.later⟩

lemma drop (h : Inside outer s) (here : s.guards[n]? = some (some g))
    (inner : outer.guards.length < n) :
    Inside outer ⟨s.loaders, s.created, g.displaced, s.guards.set n none⟩ where
  created := h.created
  override := h.later n g inner here
  older k known := (List.getElem?_set_ne (by omega)).trans (h.older k known)
  first := (List.getElem?_set_ne (by omega)).trans h.first
  later k g' beyond there := by
    rw [List.getElem?_set] at there
    split at there
    · split at there <;> cases there
    · exact h.later k g' beyond there

lemma drop_first (h : Inside outer s)
    (closed : ∀ later, outer.guards.length < later → s.isOpen later = false) :
    Behind outer ⟨s.loaders, s.created, outer.override, s.guards.set outer.guards.length none⟩ where
  override := rfl
  older k known := (List.getElem?_set_ne (by omega)).trans (h.older k known)
  known := by simpa using h.known
  closed k beyond := by
    rw [State.isOpen, List.getElem?_set]
    split
    next same =>
      subst same
      simp [h.known]
    next other => exact closed k (by omega)

lemma step (h : Inside outer s) (order : s.keepsOrder c) :
    Inside outer (s.step c) ∨ Behind outer (s.step c) := by
  cases c with
  | openScope tags => exact .inl (h.openScope tags)
  | choose tags => exact .inl ⟨h.created, h.override, h.older, h.first, h.later⟩
  | languages | message => exact .inl h
  | dropScope n =>
    obtain ⟨here, closed⟩ := isInnermost_iff.mp order
    obtain ⟨g, here⟩ := isOpen_iff.mp here
    rw [step_dropScope here]
    rcases Nat.lt_trichotomy n outer.guards.length with older | rfl | inner
    · have stale := closed _ older
      rw [h.isOpen] at stale
      cases stale
    · rw [h.first] at here
      obtain rfl := Option.some.inj (Option.some.inj here)
      exact .inr (h.drop_first closed)
    · exact .inl (h.drop here inner)

lemma after (h : Inside outer s) (order : s.isOrderly cs)
    (held : (s.after cs).isOpen outer.guards.length) {front : List (Command L)}
    (taken : front <+: cs) : Inside outer (s.after front) := by
  induction cs generalizing s front with
  | nil => rwa [List.prefix_nil.mp taken]
  | cons c cs ih =>
    obtain ⟨first, rest⟩ := Bool.and_eq_true_iff.mp order
    change ((s.step c).after cs).isOpen _ at held
    rcases List.prefix_cons_iff.mp taken with rfl | ⟨front, rfl, shorter⟩
    · exact h
    · rcases h.step first with inside | behind
      · exact ih inside rest held shorter
      · -- once it is dropped, its number is not given again
        have lost := isOpen_after_eq_false cs behind.known (behind.closed _ (Nat.le_refl _))
        rw [held] at lost
        cases lost

end Inside

section

variable (isLocal : L.IsLocal)

include isLocal

lemma loaders_openScope (s : State L) (tags : List L.Tag) {number : Nat}
    (older : number < s.created) : (s.openScope tags).1.loaders number = s.loaders number := by
  obtain ⟨loaders, selected, next⟩ := s.openScope_cases tags
  have kept : loaders number = s.loaders number := by
    rw [selected, isLocal.select_of_ne _ _ _ _ (Nat.ne_of_lt older),
      replace_of_ne (Nat.ne_of_lt older)]
  rcases next with ⟨-, next⟩ | ⟨failure, -, next⟩ <;> rw [next] <;> exact kept

lemma Inside.loaders_step (h : Inside outer s) (c : Command L) {number : Nat}
    (older : number < outer.created) : (s.step c).loaders number = s.loaders number := by
  cases c with
  | openScope tags =>
    exact loaders_openScope isLocal s tags (Nat.lt_of_lt_of_le older h.created)
  | choose tags =>
    exact isLocal.select_of_ne _ _ _ _ (Nat.ne_of_lt (Nat.lt_of_lt_of_le older h.active_ge))
  | languages | message => rfl
  | dropScope n =>
    rw [State.step, dropScope?]
    split <;> rfl

lemma loaders_after_of_inside (inside : ∀ front, front <+: cs → Inside outer (s.after front))
    {number : Nat} (older : number < outer.created) :
    (s.after cs).loaders number = s.loaders number := by
  induction cs generalizing s with
  | nil => rfl
  | cons c cs ih =>
    have below := ih fun front taken => inside (c :: front) (List.cons_prefix_cons.mpr ⟨rfl, taken⟩)
    exact below.trans ((inside [] List.nil_prefix).loaders_step isLocal c older)

end

def Nested (s : State L) : Prop :=
  (s.isIdle ∧ s.override = none) ∨
    ∃ outer : State L, outer.isIdle ∧ outer.override = none ∧ Inside outer s

lemma Behind.nested (h : Behind outer s) (idle : outer.isIdle) (bare : outer.override = none) :
    Nested s := by
  refine .inl ⟨isIdle_iff.mpr fun n => ?_, h.override.trans bare⟩
  rcases Nat.lt_or_ge n outer.guards.length with older | newer
  · exact (isOpen_congr (h.older n older)).trans (isIdle_iff.mp idle n)
  · exact h.closed n newer

lemma Nested.step (h : Nested s) (order : s.keepsOrder c) : Nested (s.step c) := by
  rcases h with ⟨idle, bare⟩ | ⟨outer, idle, bare, inside⟩
  · cases c with
    | openScope tags =>
      obtain ⟨loaders, -, ⟨opened, -⟩ | ⟨failure, -, failed⟩⟩ := s.openScope_cases tags
      · exact .inr ⟨s, idle, bare, (inside_openScope opened).2⟩
      · rw [State.step, failed]
        exact .inl ⟨idle, bare⟩
    | choose tags => exact .inl ⟨idle, bare⟩
    | languages | message => exact .inl ⟨idle, bare⟩
    | dropScope n =>
      have closed := isIdle_iff.mp idle n
      rw [(isInnermost_iff.mp order).1] at closed
      cases closed
  · rcases inside.step order with inside | behind
    · exact .inr ⟨outer, idle, bare, inside⟩
    · exact behind.nested idle bare

lemma Nested.after (h : Nested s) (order : s.isOrderly cs) : Nested (s.after cs) := by
  induction cs generalizing s with
  | nil => exact h
  | cons c cs ih =>
    obtain ⟨first, rest⟩ := Bool.and_eq_true_iff.mp order
    exact ih (h.step first) rest

lemma Nested.bare (h : Nested s) (idle : s.isIdle) : s.override = none := by
  rcases h with ⟨-, bare⟩ | ⟨outer, -, -, inside⟩
  · exact bare
  · have closed := isIdle_iff.mp idle outer.guards.length
    rw [inside.isOpen] at closed
    cases closed

def dropped? (s : State L) : Command L → Option Guard
  | .dropScope number => s.guards[number]?.join
  | _ => none

def lastDropped? (s : State L) : List (Command L) → Option Guard
  | [] => none
  | c :: cs => ((s.step c).lastDropped? cs).or (s.dropped? c)

lemma override_step (idle : (s.step c).isIdle) :
    (s.dropped? c = none → s.isIdle) ∧
      (s.step c).override = ((s.dropped? c).map Guard.displaced).getD s.override := by
  cases c with
  | openScope tags =>
    rw [step] at idle
    obtain ⟨loaders, -, ⟨-, next⟩ | ⟨failure, -, next⟩⟩ := s.openScope_cases tags
    · rw [next, isIdle] at idle
      simp at idle
    · rw [step, next]
      rw [next] at idle
      exact ⟨fun _ => idle, rfl⟩
  | choose tags => exact ⟨fun _ => idle, rfl⟩
  | languages | message => exact ⟨fun _ => idle, rfl⟩
  | dropScope n =>
    cases here : s.isOpen n with
    | false =>
      rw [step_dropScope_of_closed here] at idle ⊢
      rw [isOpen, Option.isSome_eq_false_iff, Option.isNone_iff_eq_none] at here
      exact ⟨fun _ => idle, by rw [dropped?, here]; rfl⟩
    | true =>
      obtain ⟨g, here⟩ := isOpen_iff.mp here
      rw [step_dropScope here, dropped?, here]
      exact ⟨fun closed => absurd closed (Option.some_ne_none g), rfl⟩

lemma isIdle_of_after (kept : s.lastDropped? cs = none) (idle : (s.after cs).isIdle) :
    s.isIdle := by
  induction cs generalizing s with
  | nil => exact idle
  | cons c cs ih =>
    obtain ⟨rest, first⟩ := Option.or_eq_none_iff.mp kept
    exact (override_step (ih rest idle)).1 first

lemma override_after (idle : (s.after cs).isIdle) :
    (s.after cs).override = ((s.lastDropped? cs).map Guard.displaced).getD s.override := by
  induction cs generalizing s with
  | nil => rfl
  | cons c cs ih =>
    change ((s.step c).after cs).override = _
    rw [ih idle, lastDropped?]
    cases last : (s.step c).lastDropped? cs with
    | some g => rfl
    | none => exact (override_step (isIdle_of_after last idle)).2

lemma opens_of_step (here : (s.step c).guards[n]? = some (some g)) :
    s.guards[n]? = some (some g) ∨
      (∃ tags, c = .openScope tags) ∧ s.guards.length = n ∧ g.displaced = s.override := by
  cases c with
  | openScope tags =>
    rcases guard_of_openScope here with old | ⟨opened, rfl⟩
    · exact .inl old
    · exact .inr ⟨⟨tags, rfl⟩, opened, rfl⟩
  | choose => exact .inl here
  | languages | message => exact .inl here
  | dropScope k =>
    cases there : s.isOpen k with
    | false =>
      rw [step_dropScope_of_closed there] at here
      exact .inl here
    | true =>
      obtain ⟨h, there⟩ := isOpen_iff.mp there
      rw [step_dropScope there, List.getElem?_set] at here
      split at here
      · split at here <;> cases here
      · exact .inl here

end Locale.State

end FeatureFile
