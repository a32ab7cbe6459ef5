import FeatureFile.Proofs.Document.Lexed

namespace FeatureFile

namespace RawLine

lemma prepend_eq_cons {t : Token} {ls below : List RawLine} {l : RawLine}
    (h : prepend t ls = l :: below) :
    (ls = [] ∧ l = ⟨[t], none⟩ ∧ below = []) ∨
      ∃ m, ls = m :: below ∧ l = ⟨t :: m.content, m.ending⟩ := by
  cases ls with
  | nil =>
    obtain ⟨rfl, rfl⟩ := List.cons.inj h
    exact .inl ⟨rfl, rfl, rfl⟩
  | cons m ms =>
    obtain ⟨rfl, rfl⟩ := List.cons.inj h
    exact .inr ⟨m, rfl, rfl⟩

lemma ofTokens_eq_append {ts : List Token} {front below : List RawLine}
    (whole : ofTokens ts = front ++ below) :
    ∃ skipped rest, ts = skipped ++ rest ∧ ofTokens rest = below := by
  induction ts generalizing front with
  | nil =>
    obtain ⟨-, rfl⟩ := List.append_eq_nil_iff.mp whole.symm
    exact ⟨[], [], rfl, rfl⟩
  | cons t ts ih =>
    cases front with
    | nil => exact ⟨[], t :: ts, rfl, whole⟩
    | cons f front =>
      rw [ofTokens] at whole
      split at whole
      case isTrue eol =>
        obtain ⟨skipped, rest, rfl, lines⟩ := ih (List.cons.inj whole).2
        exact ⟨t :: skipped, rest, rfl, lines⟩
      case isFalse other =>
        rcases prepend_eq_cons whole with ⟨-, -, none⟩ | ⟨m, lines, -⟩
        · obtain ⟨-, rfl⟩ := List.append_eq_nil_iff.mp none
          exact ⟨t :: ts, [], (List.append_nil _).symm, rfl⟩
        · have lines : ofTokens ts = (m :: front) ++ below := lines
          obtain ⟨skipped, rest, rfl, again⟩ := ih lines
          exact ⟨t :: skipped, rest, rfl, again⟩

lemma eq_append_of_ofTokens {ts : List Token} {l : RawLine} {below : List RawLine}
    (whole : ofTokens ts = l :: below) :
    ts = l.content ++ (l.ending.toList ++ below.flatMap tokens) := by
  rw [← flatMap_tokens_ofTokens ts, whole, List.flatMap_cons, tokens, List.append_assoc]

lemma ofTokens_drop {ts : List Token} {below : List RawLine} {l : RawLine}
    {before after : List Token} {t : Token} (whole : ofTokens ts = l :: below)
    (content : l.content = before ++ t :: after) :
    ∃ rest, ts = before ++ t :: rest ∧ ofTokens (t :: rest) = ⟨t :: after, l.ending⟩ :: below := by
  have closed : l.IsClosed := isClosed_ofTokens ts l (by rw [whole]; exact List.mem_cons_self)
  have split := eq_append_of_ofTokens whole
  induction before generalizing ts l with
  | nil =>
    rw [content, List.nil_append, List.cons_append] at split
    refine ⟨_, split, ?_⟩
    rw [← split, whole, ← List.nil_append (t :: after), ← content]
  | cons b before ih =>
    have inline : b.kind ≠ .eol := closed.content b (by rw [content]; exact List.mem_cons_self)
    rw [content, List.cons_append, List.cons_append] at split
    subst split
    rw [ofTokens, if_neg inline] at whole
    rcases prepend_eq_cons whole with ⟨-, rfl, -⟩ | ⟨m, lines, rfl⟩
    · simp at content
    · have inner : m.content = before ++ t :: after := (List.cons.inj content).2
      have shorter := isClosed_ofTokens _ m (by rw [lines]; exact List.mem_cons_self)
      obtain ⟨rest, split, again⟩ := ih lines inner shorter (eq_append_of_ofTokens lines)
      exact ⟨rest, congrArg (b :: ·) split, again⟩

end RawLine

namespace Item

lemma lines_of_ofLines {ls : List RawLine} {front : List Line} {found : Line} {below : List Item}
    (whole : ofLines none ls = front.map line ++ line found :: below) :
    ∃ above l rest, ls = above ++ l :: rest ∧ l.significant? = some found ∧
      found.kind ≠ .fence ∧ ofLines none rest = below := by
  induction ls generalizing front with
  | nil => simp [ofLines] at whole
  | cons l rest ih =>
    have deeper {front' : List Line} (whole' : ofLines none rest = front'.map line ++ line found :: below) :
        ∃ above l' rest', l :: rest = above ++ l' :: rest' ∧ l'.significant? = some found ∧
          found.kind ≠ .fence ∧ ofLines none rest' = below := by
      obtain ⟨above, l', rest', rfl, here, other, items⟩ := ih whole'
      exact ⟨l :: above, l', rest', rfl, here, other, items⟩
    rw [ofLines] at whole
    cases here : l.significant? with
    | none =>
      rw [here] at whole
      exact deeper whole
    | some first =>
      simp only [here] at whole
      split at whole
      case isTrue fence =>
        obtain ⟨b, items, block⟩ := ofLines_some_eq_cons (first, []) rest
        rw [block] at whole
        cases front <;> cases (List.cons.inj whole).1
      case isFalse other =>
        cases front with
        | nil =>
          obtain ⟨same, rfl⟩ := List.cons.inj whole
          obtain rfl := line.inj same
          exact ⟨[], l, rest, rfl, here, other, rfl⟩
        | cons f front => exact deeper (List.cons.inj whole).2

theorem ofLines_dropWhile {ts : List Token} (nodup : ts.Nodup) {skipped ls : List RawLine}
    (lines : RawLine.ofTokens ts = skipped ++ ls) {front : List Line} {found : Line}
    {below : List Item} (whole : ofLines none ls = front.map line ++ line found :: below) :
    ofLines none (RawLine.ofTokens (ts.dropWhile (· ≠ found.head))) = line found :: below := by
  obtain ⟨above, l, rest, rfl, here, other, rfl⟩ := lines_of_ofLines whole
  obtain ⟨before, behind, rfl, again⟩ := RawLine.ofTokens_eq_append
    (lines.trans (List.append_assoc skipped above (l :: rest)).symm)
  have content : l.content = l.content.takeWhile (·.kind.isTrivia) ++ found.head :: found.tail := by
    rw [← Line.dropWhile_of_significant? here, List.takeWhile_append_dropWhile]
  obtain ⟨tail, rfl, last⟩ := RawLine.ofTokens_drop again content
  have fresh : ∀ u ∈ before ++ l.content.takeWhile (·.kind.isTrivia), u ≠ found.head := by
    rw [← List.append_assoc] at nodup
    exact fun u hu => (List.nodup_append.mp nodup).2.2 u hu _ List.mem_cons_self
  rw [← List.append_assoc, List.dropWhile_append_of_pos (by simpa using fresh),
    List.dropWhile_cons_of_neg (by simp), last, ofLines]
  have significant : found.head.kind.isTrivia = false := Line.isTrivia_of_significant? here
  have first : RawLine.significant? ⟨found.head :: found.tail, l.ending⟩ = some found := by
    rw [RawLine.significant?, List.dropWhile_cons_of_neg (by simp [significant]),
      ← Line.ending_of_significant? here]
  simp only [first, if_neg other]

end Item

lemma Opening.skipJunk_suffix (ls : List RawLine) : (skipJunk ls).2 <:+ ls := by
  fun_induction skipJunk ls with
  | case1 => exact List.suffix_rfl
  | case2 l rest blank ih => exact ih.trans (List.suffix_cons l rest)
  | case3 => exact List.suffix_rfl
  | case4 l rest found here goes ih => exact ih.trans (List.suffix_cons l rest)

end FeatureFile
