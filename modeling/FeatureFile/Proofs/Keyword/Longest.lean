import Mathlib.Data.List.Nodup
import FeatureFile.Proofs.Keyword
import FeatureFile.Proofs.Text.CaseFold

/-!
The longest keyword at the start of a text. No two phrases of the dictionary are equal up to letter
case, so phrases of one length cannot both stand there, and in whatever order they are tried, the same
one is found.
-/

namespace FeatureFile.Keyword

open Text (SameFold foldCase)

def entries : List (TokenKind × String) :=
  kinds.flatMap fun kind => kind.phrases.map (kind, ·)

def IsEnded (kind : TokenKind) (next : Option Char) : Prop :=
  if kind.isHeader then next = some ':' else ∀ c ∈ next, c ∈ [' ', '\t', '\r', '\n', '#']

/-- A phrase that a text starts with, up to letter case, and that is properly ended there. -/
structure Stands (text : List Char) (kind : TokenKind) (phrase : String) : Prop where
  synonym : phrase ∈ kind.phrases
  same : SameFold (text.take phrase.toList.length) phrase.toList
  ended : IsEnded kind (text.drop phrase.toList.length).head?

lemma after?_eq_some_iff {phrase text rest : List Char} :
    after? phrase text = some rest ↔
      SameFold (text.take phrase.length) phrase ∧ text.drop phrase.length = rest := by
  fun_induction after? phrase text with
  | case1 text => simp [SameFold]
  | case2 p phrase => simp [SameFold]
  | case3 p phrase c text same ih => simp [SameFold, same, ih]
  | case4 p phrase c text other => simp [SameFold, other]

lemma endsBefore_iff {kind : TokenKind} {rest : List Char} :
    endsBefore kind rest ↔ IsEnded kind rest.head? := by
  cases rest <;> cases header : kind.isHeader <;> simp [endsBefore, IsEnded, header]

lemma matchPhrase_eq_some_iff {text : List Char} {kind : TokenKind} {phrase : String} {m : Match}
    (synonym : phrase ∈ kind.phrases) :
    matchPhrase text kind phrase = some m ↔
      Stands text kind phrase ∧ m = ⟨kind, phrase.toList.length⟩ := by
  rw [matchPhrase]
  split
  case h_1 rest found =>
    obtain ⟨same, rfl⟩ := after?_eq_some_iff.mp found
    split
    case isTrue ends => simp [Stands.mk synonym same (endsBefore_iff.mp ends), eq_comm]
    case isFalse unended =>
      simpa using fun here : Stands text kind phrase => absurd (endsBefore_iff.mpr here.ended) unended
  case h_2 none =>
    have other (here : Stands text kind phrase) : False := by
      simpa [none] using after?_eq_some_iff.mpr ⟨here.same, rfl⟩
    simpa using fun here => (other here).elim

lemma mem_kinds_of_phrase {kind : TokenKind} {phrase : String} (h : phrase ∈ kind.phrases) :
    kind ∈ kinds := by
  cases kind with
  | header word => cases word <;> decide
  | step word => cases word <;> decide
  | _ => cases h

lemma mem_entries {e : TokenKind × String} : e ∈ entries ↔ e.2 ∈ e.1.phrases := by
  simp only [entries, List.mem_flatMap, List.mem_map]
  constructor
  · rintro ⟨kind, -, phrase, synonym, rfl⟩
    exact synonym
  · exact fun synonym => ⟨e.1, mem_kinds_of_phrase synonym, e.2, synonym, rfl⟩

lemma candidates_eq (text : List Char) :
    candidates text = entries.filterMap fun e => matchPhrase text e.1 e.2 := by
  simp [candidates, entries, List.filterMap_flatMap, List.filterMap_map]

lemma mem_candidates {text : List Char} {m : Match} :
    m ∈ candidates text ↔ ∃ phrase, Stands text m.kind phrase ∧ m.length = phrase.toList.length := by
  rw [candidates_eq, List.mem_filterMap]
  constructor
  · rintro ⟨e, he, found⟩
    obtain ⟨here, rfl⟩ := (matchPhrase_eq_some_iff (mem_entries.mp he)).mp found
    exact ⟨e.2, here, rfl⟩
  · rintro ⟨phrase, here, length⟩
    refine ⟨(m.kind, phrase), mem_entries.mpr here.synonym, ?_⟩
    exact (matchPhrase_eq_some_iff here.synonym).mpr ⟨here, by rw [← length]⟩

lemma nodup_folded : (entries.map fun e => e.2.toList.map foldCase).Nodup := by
  decide +kernel

lemma Stands.kind_eq {text : List Char} {kind kind' : TokenKind} {phrase phrase' : String}
    (h : Stands text kind phrase) (h' : Stands text kind' phrase')
    (length : phrase.toList.length = phrase'.toList.length) : kind = kind' := by
  have folded : phrase.toList.map foldCase = phrase'.toList.map foldCase := by
    rw [← h.same.map_eq, ← h'.same.map_eq, length]
  have entry := List.inj_on_of_nodup_map nodup_folded (x := (kind, phrase)) (mem_entries.mpr h.synonym)
    (y := (kind', phrase')) (mem_entries.mpr h'.synonym) folded
  exact congrArg Prod.fst entry

lemma eq_of_mem_candidates {text : List Char} {m n : Match} (hm : m ∈ candidates text)
    (hn : n ∈ candidates text) (length : m.length = n.length) : m = n := by
  obtain ⟨phrase, here, long⟩ := mem_candidates.mp hm
  obtain ⟨phrase', here', long'⟩ := mem_candidates.mp hn
  have kind := here.kind_eq here' (by rw [← long, ← long', length])
  obtain ⟨k, l⟩ := m
  obtain ⟨k', l'⟩ := n
  rw [Match.mk.injEq]
  exact ⟨kind, length⟩

lemma longest_ne_none {ms : List Match} (some : ms ≠ []) : longest ms ≠ none := by
  cases ms with
  | nil => exact absurd rfl some
  | cons m rest =>
    rw [longest]
    split
    · split <;> simp
    · simp

lemma length_le_of_longest {ms : List Match} {m : Match} (h : longest ms = some m) :
    ∀ n ∈ ms, n.length ≤ m.length := by
  induction ms generalizing m with
  | nil => simp
  | cons n rest ih =>
    rw [longest] at h
    split at h
    case h_1 best found =>
      have below := ih found
      split at h
      case isTrue shorter =>
        obtain rfl := Option.some.inj h
        exact List.forall_mem_cons.mpr ⟨Nat.le_of_lt shorter, below⟩
      case isFalse longer =>
        obtain rfl := Option.some.inj h
        refine List.forall_mem_cons.mpr ⟨Nat.le_refl _, fun k hk => ?_⟩
        exact Nat.le_trans (below k hk) (Nat.le_of_not_lt longer)
    case h_2 none =>
      obtain rfl := Option.some.inj h
      obtain rfl : rest = [] := by
        by_contra some
        exact longest_ne_none some none
      simp

lemma longest_eq_some_iff {ms : List Match} {m : Match}
    (apart : ∀ k ∈ ms, ∀ n ∈ ms, k.length = n.length → k = n) :
    longest ms = some m ↔ m ∈ ms ∧ ∀ n ∈ ms, n.length ≤ m.length := by
  constructor
  · exact fun h => ⟨mem_of_longest h, length_le_of_longest h⟩
  · rintro ⟨mem, most⟩
    obtain ⟨n, found⟩ := Option.ne_none_iff_exists'.mp (longest_ne_none (List.ne_nil_of_mem mem))
    have length := Nat.le_antisymm (most n (mem_of_longest found)) (length_le_of_longest found m mem)
    rw [found, apart n (mem_of_longest found) m mem length]

lemma at?_eq_some_iff {text : List Char} {m : Match} :
    at? text = some m ↔ m ∈ candidates text ∧ ∀ n ∈ candidates text, n.length ≤ m.length :=
  longest_eq_some_iff fun _ hk _ hn => eq_of_mem_candidates hk hn

lemma longest_of_perm {text : List Char} {ms : List Match} (perm : ms.Perm (candidates text)) :
    longest ms = at? text := by
  refine Option.ext fun m => ?_
  rw [at?_eq_some_iff, longest_eq_some_iff]
  · simp only [perm.mem_iff]
  · exact fun k hk n hn => eq_of_mem_candidates (perm.mem_iff.mp hk) (perm.mem_iff.mp hn)

lemma length_of_matchPhrase {text : List Char} {kind : TokenKind} {phrase : String} {m : Match}
    (h : matchPhrase text kind phrase = some m) : m.length = phrase.toList.length := by
  rw [matchPhrase] at h
  split at h
  · split at h
    · rw [← Option.some.inj h]
    · cases h
  · cases h

lemma length_le_of_findSome? {text : List Char} {table : List (TokenKind × String)} {m : Match}
    (sorted : table.Pairwise fun e f => f.2.toList.length ≤ e.2.toList.length)
    (found : table.findSome? (fun e => matchPhrase text e.1 e.2) = some m) :
    ∀ e ∈ table, ∀ n, matchPhrase text e.1 e.2 = some n → n.length ≤ m.length := by
  induction table with
  | nil => cases found
  | cons e table ih =>
    obtain ⟨first, others⟩ := List.pairwise_cons.mp sorted
    rw [List.findSome?_cons] at found
    cases here : matchPhrase text e.1 e.2 with
    | none =>
      rw [here] at found
      exact List.forall_mem_cons.mpr ⟨by simp [here], ih others found⟩
    | some k =>
      rw [here] at found
      obtain rfl := Option.some.inj found
      refine List.forall_mem_cons.mpr ⟨fun n again => ?_, fun f hf n there => ?_⟩
      · rw [length_of_matchPhrase again, length_of_matchPhrase here]
      · rw [length_of_matchPhrase there, length_of_matchPhrase here]
        exact first f hf

lemma findSome?_eq_at? {text : List Char} {table : List (TokenKind × String)}
    (perm : table.Perm entries)
    (sorted : table.Pairwise fun e f => f.2.toList.length ≤ e.2.toList.length) :
    table.findSome? (fun e => matchPhrase text e.1 e.2) = at? text := by
  have same : ∀ m, m ∈ candidates text ↔ ∃ e ∈ table, matchPhrase text e.1 e.2 = some m := by
    intro m
    rw [candidates_eq, List.mem_filterMap]
    simp only [perm.mem_iff]
  cases found : table.findSome? fun e => matchPhrase text e.1 e.2 with
  | none =>
    have none : candidates text = [] := by
      rw [List.eq_nil_iff_forall_not_mem]
      intro m hm
      obtain ⟨e, he, here⟩ := (same m).mp hm
      rw [List.findSome?_eq_none_iff.mp found e he] at here
      cases here
    rw [at?, none, longest]
  | some m =>
    have mem := (same m).mpr (List.exists_of_findSome?_eq_some found)
    refine (at?_eq_some_iff.mpr ⟨mem, fun n hn => ?_⟩).symm
    obtain ⟨e, he, there⟩ := (same n).mp hn
    exact length_le_of_findSome? sorted found e he n there

end FeatureFile.Keyword
