import FeatureFile.Bundle.Texts
import FeatureFile.Proofs.Locale.Scopes

namespace FeatureFile

open FeatureFile.Locale

lemma Locale.isLocal_bundled : bundled.IsLocal where
  select_of_ne _ _ _ _ other := replace_of_ne other _ _

namespace Runtime

variable {L : Loading}

def isOrderly (s : Runtime L) (cs : List (Command L)) : Bool :=
  s.locale.isOrderly (cs.filterMap Command.locale?)

/-- What the scope displaced that is dropped last. -/
def lastDropped? (s : Runtime L) (cs : List (Command L)) : Option Guard :=
  s.locale.lastDropped? (cs.filterMap Command.locale?)

variable {s : Runtime L} {tags : List L.Tag} {n : Nat} {inner : List (Command L)}

lemma locale_after_openScope (s : Runtime L) (tags : List L.Tag) (cs : List (Command L)) :
    (s.after (.locale (.openScope tags) :: cs)).locale =
      (s.locale.openScope tags).1.after (cs.filterMap Command.locale?) :=
  locale_after (s.step (.locale (.openScope tags))) cs

lemma inside_of_isOrderly (opened : (s.locale.openScope tags).2 = .ok n)
    (order : s.isOrderly (.locale (.openScope tags) :: inner ++ [.locale (.dropScope n)]))
    {front : List (Locale.Command L)} (taken : front <+: inner.filterMap Command.locale?) :
    s.locale.Inside ((s.locale.openScope tags).1.after front) := by
  obtain ⟨rfl, inside⟩ := State.inside_openScope opened
  have order : (s.locale.openScope tags).1.isOrderly ((inner ++ [_]).filterMap Command.locale?) :=
    order
  rw [List.filterMap_append, State.isOrderly_append] at order
  obtain ⟨within, last⟩ := Bool.and_eq_true_iff.mp order
  obtain ⟨held, -⟩ := State.isInnermost_iff.mp (Bool.and_eq_true_iff.mp last).1
  exact inside.after within held taken

lemma loaders_of_isOrderly (isLocal : L.IsLocal) (opened : (s.locale.openScope tags).2 = .ok n)
    (order : s.isOrderly (.locale (.openScope tags) :: inner ++ [.locale (.dropScope n)]))
    {front : List (Locale.Command L)} (taken : front <+: inner.filterMap Command.locale?)
    {number : Nat} (older : number < s.locale.created) :
    ((s.locale.openScope tags).1.after front).loaders number = s.locale.loaders number :=
  (State.loaders_after_of_inside isLocal
    (fun _ within => inside_of_isOrderly opened order (within.trans taken)) older).trans
    (State.loaders_openScope isLocal s.locale tags older)

lemma locale_after_dropScope (opened : (s.locale.openScope tags).2 = .ok n)
    (order : s.isOrderly (.locale (.openScope tags) :: inner ++ [.locale (.dropScope n)])) :
    let inside := (s.locale.openScope tags).1.after (inner.filterMap Command.locale?)
    (s.after (.locale (.openScope tags) :: inner ++ [.locale (.dropScope n)])).locale =
      ⟨inside.loaders, inside.created, s.locale.override, inside.guards.set n none⟩ := by
  intro inside
  have first := (inside_of_isOrderly opened order List.prefix_rfl).first
  obtain ⟨rfl, -⟩ := State.inside_openScope opened
  rw [List.cons_append, locale_after_openScope, List.filterMap_append, State.after_append]
  exact State.step_dropScope first

/-- A scope that is opened and dropped, with all that is opened in between dropped before it, leaves
the languages as it found them. Nothing in between changes those of the process. -/
theorem scope_restores (isLocal : L.IsLocal) (reachable : s.IsReachable)
    (opened : (s.locale.openScope tags).2 = .ok n)
    (order : s.isOrderly (.locale (.openScope tags) :: inner ++ [.locale (.dropScope n)])) :
    let cs := .locale (.openScope tags) :: inner ++ [.locale (.dropScope n)]
    let t := s.after cs
    t.locale.override = s.locale.override ∧
      (∀ number ∈ s.locale.override, t.locale.loaders number = s.locale.loaders number) ∧
      t.locale.languages = s.locale.languages ∧
      ∀ front, front <+: cs → (s.after front).locale.loaders 0 = s.locale.loaders 0 := by
  intro cs t
  have sound := reachable.isSound
  have dropped : t.locale = _ := locale_after_dropScope opened order
  have kept {number : Nat} (older : number < s.locale.created) :
      t.locale.loaders number = s.locale.loaders number := by
    rw [dropped]
    exact loaders_of_isOrderly isLocal opened order List.prefix_rfl older
  have override : t.locale.override = s.locale.override := by rw [dropped]
  refine ⟨override, fun number hn => kept (sound.override number hn), ?_, fun front taken => ?_⟩
  · rw [State.languages, State.active, override]
    exact congrArg L.languages (kept sound.active_lt)
  · rcases List.prefix_concat_iff.mp taken with rfl | within
    · exact kept sound.created
    · rcases List.prefix_cons_iff.mp within with rfl | ⟨front, rfl, shorter⟩
      · rfl
      · rw [locale_after_openScope]
        exact loaders_of_isOrderly isLocal opened order (shorter.filterMap _) sound.created

theorem scope_restores_nested :
    let russian : Command bundled := .locale (.choose [.russian])
    let s := (initial bundled).after [russian, .locale (.openScope [.english])]
    let inner := [russian, .locale (.openScope [.english]), .parse none "Rule: r".toList,
      .locale (.choose [.russian, .english]), .locale .languages, .locale (.dropScope 2)]
    let t := s.after (.locale (.openScope [.russian]) :: inner ++ [.locale (.dropScope 1)])
    bundled.IsLocal ∧ s.IsReachable ∧ (s.locale.openScope [.russian]).2 = .ok 1 ∧
      s.isOrderly (.locale (.openScope [.russian]) :: inner ++ [.locale (.dropScope 1)]) ∧
      s.locale.override = some 1 ∧ t.locale.override = s.locale.override ∧
      s.locale.languages = [.english] ∧ t.locale.languages = s.locale.languages ∧
      s.locale.loaders 0 = [.russian, .english] ∧ t.locale.loaders 0 = s.locale.loaders 0 := by
  intro russian s inner t
  have reachable : s.IsReachable := ⟨_, rfl⟩
  have opened : (s.locale.openScope [.russian]).2 = .ok 1 := rfl
  have order : s.isOrderly (.locale (.openScope [.russian]) :: inner ++ [.locale (.dropScope 1)]) := by
    decide
  obtain ⟨override, -, languages, process⟩ := scope_restores isLocal_bundled reachable opened order
  exact ⟨isLocal_bundled, reachable, opened, order, rfl, override, by decide, languages, by decide,
    process _ List.prefix_rfl⟩

lemma exists_openScope {cs : List (Command L)} {g : Guard}
    (here : (s.after cs).locale.guards[n]? = some (some g)) :
    s.locale.guards[n]? = some (some g) ∨ ∃ front tags back,
      cs = front ++ .locale (.openScope tags) :: back ∧
        (s.after front).locale.guards.length = n ∧
        g.displaced = (s.after front).locale.override := by
  induction cs generalizing s with
  | nil => exact .inl here
  | cons c cs ih =>
    rcases ih here with kept | ⟨front, tags, back, rfl, opened⟩
    · cases c with
      | locale c =>
        rcases State.opens_of_step kept with kept | ⟨⟨tags, rfl⟩, opened⟩
        · exact .inl kept
        · exact .inr ⟨[], tags, cs, rfl, opened⟩
      | force | inherit | parse => exact .inl kept
    · exact .inr ⟨c :: front, tags, back, rfl, opened⟩

lemma exists_dropScope {cs : List (Command L)} {g : Guard} (last : g ∈ s.lastDropped? cs) :
    ∃ front n back, cs = front ++ .locale (.dropScope n) :: back ∧
      (s.after front).locale.guards[n]? = some (some g) := by
  induction cs generalizing s with
  | nil => cases last
  | cons c cs ih =>
    have later (below : g ∈ (s.step c).lastDropped? cs) : ∃ front n back,
        c :: cs = front ++ .locale (.dropScope n) :: back ∧
          (s.after front).locale.guards[n]? = some (some g) := by
      obtain ⟨front, n, back, rfl, here⟩ := ih below
      exact ⟨c :: front, n, back, rfl, here⟩
    cases c with
    | locale c =>
      rcases Option.or_eq_some_iff.mp last with below | ⟨-, now⟩
      · exact later below
      · cases c with
        | dropScope n => exact ⟨[], n, cs, rfl, Option.join_eq_some_iff.mp now⟩
        | openScope | choose | languages | message => cases now
    | force | inherit | parse => exact later last

/-- When no scope is open any more, none is left in force if and only if the one that was dropped
last was opened when there was none. That is so whenever scopes are dropped in the reverse of the order
in which they are opened, and then it is the loader of the process that is asked again. -/
theorem scopes_end {cs : List (Command L)} (bare : s.locale.override = none)
    (idle : (s.after cs).locale.isIdle) :
    let t := s.after cs
    (t.locale.override = none ↔ ∀ g ∈ s.lastDropped? cs, g.displaced = none) ∧
      (s.locale.isIdle → ∀ g ∈ s.lastDropped? cs, ∃ front tags inner n back,
        cs = front ++ .locale (.openScope tags) :: (inner ++ .locale (.dropScope n) :: back) ∧
          (s.after front).locale.guards.length = n ∧
          g.displaced = (s.after front).locale.override) ∧
      (s.locale.isIdle → s.isOrderly cs → t.locale.override = none) ∧
      (t.locale.override = none →
        t.locale.languages = L.languages (t.locale.loaders 0) ∧
        t.locale.wording = ⟨L.text (t.locale.loaders 0)⟩ ∧
        ∀ tags, t.locale.choose tags =
          ({ t.locale with loaders := (L.select 0 tags t.locale.loaders).2 },
            (L.select 0 tags t.locale.loaders).1)) := by
  intro t
  have same : t.locale = s.locale.after (cs.filterMap Command.locale?) := locale_after s cs
  rw [same] at idle
  refine ⟨?_, fun closed g last => ?_, fun closed order => ?_, fun none => ?_⟩
  · have left := State.override_after idle
    rw [← same, bare] at left
    rw [left, lastDropped?]
    cases s.locale.lastDropped? (cs.filterMap Command.locale?) <;> simp
  · obtain ⟨front, n, back, rfl, here⟩ := exists_dropScope last
    rcases exists_openScope here with kept | ⟨front, tags, inner, rfl, opened⟩
    · have gone := State.isIdle_iff.mp closed n
      rw [State.isOpen, kept] at gone
      cases gone
    · exact ⟨front, tags, inner, n, back, by simp, opened⟩
  · have nested : s.locale.Nested := .inl ⟨closed, bare⟩
    rw [same]
    exact (nested.after order).bare idle
  · have active : t.locale.active = 0 := by
      rw [State.active, none]
      rfl
    rw [State.languages, State.wording, active]
    refine ⟨rfl, rfl, fun tags => ?_⟩
    rw [State.choose, active]

theorem scopes_end_first :
    let scope (tag : Language) : Command bundled := .locale (.openScope [tag])
    let drop (number : Nat) : Command bundled := .locale (.dropScope number)
    let cs := [scope .russian, scope .english, scope .russian, drop 1, drop 2, drop 0]
    let t := (initial bundled).after cs
    (initial bundled).locale.override = none ∧ t.locale.isIdle ∧
      ¬ (initial bundled).isOrderly cs ∧ t.locale.override = none := by
  intro scope drop cs t
  have idle : t.locale.isIdle := by decide
  have last : (initial bundled).lastDropped? cs = some ⟨none⟩ := by decide
  obtain ⟨left, -⟩ := scopes_end rfl idle
  rw [last] at left
  exact ⟨rfl, idle, by decide, left.mpr (by simp)⟩

/-- Of two scopes the first is dropped before the second, and its languages are left in force. -/
theorem scopes_end_crossed :
    let scope (tag : Language) : Command bundled := .locale (.openScope [tag])
    let drop (number : Nat) : Command bundled := .locale (.dropScope number)
    let t := (initial bundled).after [scope .russian, scope .english, drop 0, drop 1]
    (initial bundled).locale.override = none ∧ t.locale.isIdle ∧
      t.locale.override = some 1 ∧ t.locale.languages = [.russian, .english] ∧
      t.locale.loaders 0 = [.english] := by
  decide

end Runtime

end FeatureFile
