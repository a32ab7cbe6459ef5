import FeatureFile.Proofs.Token.Place

/-!
Reading token by token. A reader takes tokens from the front of those that are left and stops at the
end of input; a loop goes on as long as what is left tells it to, and takes something each time.
-/

namespace FeatureFile

def Takes (left rest : List Token) : Prop :=
  ∃ taken, left = taken ++ rest ∧ ∀ t ∈ taken, t.kind ≠ .eof

namespace Takes

variable {left middle rest : List Token}

lemma refl (left : List Token) : Takes left left :=
  ⟨[], rfl, List.forall_mem_nil _⟩

lemma trans (h : Takes left middle) (h' : Takes middle rest) : Takes left rest := by
  obtain ⟨taken, rfl, front⟩ := h
  obtain ⟨more, rfl, back⟩ := h'
  exact ⟨taken ++ more, (List.append_assoc _ _ _).symm, List.forall_mem_append.mpr ⟨front, back⟩⟩

lemma length_le (h : Takes left rest) : rest.length ≤ left.length := by
  obtain ⟨taken, rfl, -⟩ := h
  simp

end Takes

structure Advances (left rest : List Token) : Prop where
  takes : Takes left rest
  shorter : rest.length < left.length

namespace Advances

variable {left middle rest : List Token}

lemma trans_takes (h : Advances left middle) (h' : Takes middle rest) : Advances left rest :=
  ⟨h.takes.trans h', h'.length_le.trans_lt h.shorter⟩

end Advances

lemma Takes.trans_advances {left middle rest : List Token} (h : Takes left middle)
    (h' : Advances middle rest) : Advances left rest :=
  ⟨h.trans h'.takes, h'.shorter.trans_le h.length_le⟩

inductive Scope where
  | feature | rule
  deriving DecidableEq, Repr

inductive Repetition where
  | trivia | padding | line | tagLine | tags | docString | description | rows | steps | examples
  | scenarios (scope : Scope)
  | rules | junk
  deriving DecidableEq, Repr

structure Turn where
  loop : Repetition
  before : List Token
  after : List Token

structure Turn.LiesIn (left : List Token) (t : Turn) : Prop where
  takes : Takes left t.before
  advances : Advances t.before t.after

lemma Takes.turn {left middle : List Token} {t : Turn} (h : Takes left middle)
    (h' : t.LiesIn middle) : t.LiesIn left :=
  ⟨h.trans h'.takes, h'.advances⟩

/-- A reader keeps a record of the iterations of its loops. -/
structure Reader (α : Type) where
  read : List Token → α × List Token
  turns : List Token → List Turn
  takes : ∀ left, Takes left (read left).2
  advances : ∀ left, ∀ t ∈ turns left, t.LiesIn left

namespace Reader

variable {α β : Type}

instance : Monad Reader where
  pure a := ⟨fun left => (a, left), fun _ => [], Takes.refl, fun _ => List.forall_mem_nil _⟩
  bind x f := {
    read left := (f (x.read left).1).read (x.read left).2
    turns left := x.turns left ++ (f (x.read left).1).turns (x.read left).2
    takes left := (x.takes left).trans ((f (x.read left).1).takes _)
    advances left := List.forall_mem_append.mpr ⟨x.advances left,
      fun t ht => (x.takes left).turn ((f (x.read left).1).advances _ t ht)⟩ }

@[simp] lemma read_pure (a : α) (left : List Token) :
    (pure a : Reader α).read left = (a, left) := rfl

@[simp] lemma read_bind (x : Reader α) (f : α → Reader β) (left : List Token) :
    (x >>= f).read left = (f (x.read left).1).read (x.read left).2 := rfl

lemma turns_bind (x : Reader α) (f : α → Reader β) (left : List Token) :
    (x >>= f).turns left = x.turns left ++ (f (x.read left).1).turns (x.read left).2 := rfl

def ask (look : List Token → α) : Reader α :=
  ⟨fun left => (look left, left), fun _ => [], Takes.refl, fun _ => List.forall_mem_nil _⟩

@[simp] lemma read_ask (look : List Token → α) (left : List Token) :
    (ask look).read left = (look left, left) := rfl

def bump : Reader (Option Token) where
  read
    | [] => (none, [])
    | t :: rest => if t.kind = .eof then (none, t :: rest) else (some t, rest)
  turns _ := []
  advances _ := List.forall_mem_nil _
  takes left := by
    split
    · exact .refl _
    · split
      · exact .refl _
      next t rest inner => exact ⟨[t], rfl, by simpa using inner⟩

def AdvancesWhen (x : Reader α) (p : List Token → Prop) : Prop :=
  ∀ left, p left → Advances left (x.read left).2

lemma AdvancesWhen.weaken {x : Reader α} {p q : List Token → Prop} (h : x.AdvancesWhen p)
    (weaker : ∀ left, q left → p left) : x.AdvancesWhen q :=
  fun left here => h left (weaker left here)

lemma AdvancesWhen.bind {x : Reader α} {p : List Token → Prop} (h : x.AdvancesWhen p)
    (f : α → Reader β) : (x >>= f).AdvancesWhen p :=
  fun left here => (h left here).trans_takes ((f _).takes _)

end Reader

/-- A loop that repeats a reader; each time that it goes on, it takes a token at least. -/
structure Loop (α : Type) where
  name : Repetition
  goes : List Token → Bool
  body : Reader α
  advances : body.AdvancesWhen fun left => goes left

namespace Loop

variable {α : Type} (l : Loop α) {left : List Token}

def readAll (left : List Token) : List α × List Token :=
  if _more : l.goes left then
    ((l.body.read left).1 :: (readAll (l.body.read left).2).1, (readAll (l.body.read left).2).2)
  else ([], left)
termination_by left.length
decreasing_by all_goals exact (l.advances left _more).shorter

lemma readAll_of_goes (goes : l.goes left) :
    l.readAll left = ((l.body.read left).1 :: (l.readAll (l.body.read left).2).1,
      (l.readAll (l.body.read left).2).2) := by
  rw [readAll, dif_pos goes]

lemma readAll_of_stops (stops : l.goes left = false) : l.readAll left = ([], left) := by
  rw [readAll, dif_neg (by simp [stops])]

def turnsAll (left : List Token) : List Turn :=
  if _more : l.goes left then
    l.body.turns left ++ ⟨l.name, left, (l.body.read left).2⟩ :: turnsAll (l.body.read left).2
  else []
termination_by left.length
decreasing_by exact (l.advances left _more).shorter

lemma turnsAll_of_goes (goes : l.goes left) :
    l.turnsAll left = l.body.turns left ++
      ⟨l.name, left, (l.body.read left).2⟩ :: l.turnsAll (l.body.read left).2 := by
  rw [turnsAll, dif_pos goes]

lemma turnsAll_of_stops (stops : l.goes left = false) : l.turnsAll left = [] := by
  rw [turnsAll, dif_neg (by simp [stops])]

def run : Reader (List α) where
  read := l.readAll
  turns := l.turnsAll
  advances left := by
    induction left using turnsAll.induct l with
    | case1 left goes ih =>
      rw [l.turnsAll_of_goes goes]
      refine List.forall_mem_append.mpr ⟨l.body.advances left, List.forall_mem_cons.mpr ⟨?_, ?_⟩⟩
      · exact ⟨.refl left, l.advances left goes⟩
      · exact fun t ht => (l.body.takes left).turn (ih t ht)
    | case2 left stops =>
      rw [l.turnsAll_of_stops (Bool.eq_false_iff.mpr stops)]
      exact List.forall_mem_nil _
  takes left := by
    induction left using readAll.induct l with
    | case1 left goes ih =>
      rw [l.readAll_of_goes goes]
      exact (l.body.takes left).trans ih
    | case2 left stops =>
      rw [l.readAll_of_stops (Bool.eq_false_iff.mpr stops)]
      exact .refl left

lemma advances_run : l.run.AdvancesWhen fun left => l.goes left := by
  intro left goes
  change Advances left (l.readAll left).2
  rw [l.readAll_of_goes goes]
  exact (l.advances left goes).trans_takes (l.run.takes _)

def next (left : List Token) : Option (List Token) :=
  if l.goes left then some (l.body.read left).2 else none

lemma advances_of_next {rest : List Token} (h : l.next left = some rest) : Advances left rest := by
  obtain ⟨goes, same⟩ := Option.ite_none_right_eq_some.mp h
  exact Option.some.inj same ▸ l.advances left goes

end Loop

end FeatureFile
