import FeatureFile.Proofs.Token.Place
import FeatureFile.Scanner

namespace FeatureFile

namespace ScanNote

def ofLexemes : Bool → Mark → List Lexeme → List ScanNote
  | _, _, [] => []
  | inside, m, l :: rest =>
    let after := m.advance l.kind l.text
    if l.kind = .fence then
      (if inside then closed m.position else opened m.position) :: ofLexemes (!inside) after rest
    else match l.openQuote with
      | some width =>
        reported ⟨.openString, m, m.offset + width⟩ :: ofLexemes inside after rest
      | none => ofLexemes inside after rest

lemma ofLexemes_cons_fence {l : Lexeme} (fence : l.kind = .fence) (inside : Bool) (m : Mark)
    (rest : List Lexeme) :
    ofLexemes inside m (l :: rest) =
      (if inside then closed m.position else opened m.position) ::
        ofLexemes (!inside) (m.advance l.kind l.text) rest :=
  if_pos fence

lemma ofLexemes_cons_unfenced {l : Lexeme} (unfenced : l.kind ≠ .fence) (inside : Bool) (m : Mark)
    (rest : List Lexeme) :
    ofLexemes inside m (l :: rest) =
      (l.openQuote.map fun width => reported ⟨.openString, m, m.offset + width⟩).toList ++
        ofLexemes inside (m.advance l.kind l.text) rest := by
  rw [ofLexemes, if_neg unfenced]
  cases l.openQuote <;> rfl

end ScanNote

def fenceBehind (found : Option Token) (ts : List Token) : Option Token :=
  ts.foldl (fun found t =>
    if t.kind = .fence then (match found with | none => some t | some _ => none) else found) found

def openFence (tokens : List Token) : Option Token :=
  fenceBehind none tokens

lemma openFence_eq (ts : List Token) : openFence ts = fenceBehind none ts :=
  rfl

lemma fenceBehind_append (found : Option Token) (ts us : List Token) :
    fenceBehind found (ts ++ us) = fenceBehind (fenceBehind found ts) us :=
  List.foldl_append

lemma fenceBehind_cons_fence {t : Token} (fence : t.kind = .fence) (found : Option Token)
    (ts : List Token) :
    fenceBehind found (t :: ts) = fenceBehind (if found.isSome then none else some t) ts := by
  cases found <;> simp [fenceBehind, fence]

lemma fenceBehind_cons_unfenced {t : Token} (unfenced : t.kind ≠ .fence) (found : Option Token)
    (ts : List Token) :
    fenceBehind found (t :: ts) = fenceBehind found ts := by
  simp [fenceBehind, unfenced]

lemma fenceBehind_of_unfenced {ts : List Token} (h : ∀ t ∈ ts, t.kind ≠ .fence)
    (found : Option Token) :
    fenceBehind found ts = found := by
  induction ts with
  | nil => rfl
  | cons t ts ih =>
    obtain ⟨first, rest⟩ := List.forall_mem_cons.mp h
    simpa [fenceBehind, first] using ih rest

lemma mem_of_fenceBehind {found : Option Token} {ts : List Token} {t : Token}
    (h : fenceBehind found ts = some t) : found = some t ∨ t ∈ ts := by
  induction ts generalizing found with
  | nil => exact .inl h
  | cons u us ih =>
    by_cases fence : u.kind = .fence
    · rw [fenceBehind_cons_fence fence] at h
      rcases ih h with here | here
      · cases found <;> simp_all
      · exact .inr (List.mem_cons_of_mem _ here)
    · rw [fenceBehind_cons_unfenced fence] at h
      exact (ih h).imp_right (List.mem_cons_of_mem _)

namespace Fence

lemma length_marker (f : Fence) : f.marker.length = width := by
  cases f <;> rfl

lemma take_marker {f : Fence} {text : List Char} (h : f.marker.isPrefixOf text) :
    text.take 3 = f.marker := by
  rw [show 3 = f.marker.length from f.length_marker.symm]
  exact (List.prefix_iff_eq_take.mp (List.isPrefixOf_iff_prefix.mp h)).symm

lemma width_le_length (f : Fence) {text : List Char} (h : f.marker.isPrefixOf text) :
    width ≤ text.length :=
  f.length_marker ▸ (List.isPrefixOf_iff_prefix.mp h).length_le

lemma isPrefixOf_of_at? {f : Fence} {text : List Char} (h : at? text = some f) :
    f.marker.isPrefixOf text := by
  rw [at?] at h
  split at h
  case isTrue here =>
    obtain rfl := Option.some.inj h
    exact here
  case isFalse =>
    split at h
    case isTrue here =>
      obtain rfl := Option.some.inj h
      exact here
    case isFalse => cases h

lemma byteLength_marker (f : Fence) : Text.byteLength f.marker = width := by
  cases f <;> rfl

end Fence

namespace Scanner

structure Stays (mode : Mode) (cut : Cut (Mode × Shown)) : Prop where
  unfenced : cut.kind ≠ .fence
  mode : cut.next.1 = mode

structure Turns (s : Scanner) (fence : Fence) (text : List Char) (cut : Cut (Mode × Shown)) : Prop where
  kind : cut.kind = .fence
  more : cut.more = Fence.width - 1
  marker : fence.marker.isPrefixOf text
  mode : s.mode = .plain ∧ cut.next.1 = .docString fence s.mark ∨
    ∃ opened, s.mode = .docString fence opened ∧ cut.next.1 = .plain

variable (s : Scanner) (c : Char) (rest : List Char)

lemma stays_comment : Stays s.mode (s.comment rest) :=
  ⟨by simp [comment], rfl⟩

lemma stays_textRun (openQuote : Option Nat) : Stays s.mode (s.textRun c rest openQuote) :=
  ⟨by simp [textRun], rfl⟩

lemma stays_freeText : Stays s.mode (s.freeText c rest) := by
  rw [freeText]
  split
  · split
    next kind more found =>
      refine ⟨?_, rfl⟩
      rintro rfl
      rcases Lexeme.kind_scan found with literal | same
      · cases literal
      · cases same
    next => exact stays_textRun s c rest _
  · exact stays_textRun s c rest _

lemma stays_tagLine : Stays s.mode (s.tagLine c rest) := by
  rw [tagLine]
  split
  · exact ⟨by simp, rfl⟩
  · split
    · exact stays_comment s rest
    · exact stays_textRun s c rest _

lemma stays_tableRow : Stays s.mode (s.tableRow c rest) := by
  rw [tableRow]
  split <;> exact ⟨by simp, rfl⟩

lemma lineStart_cases (plain : s.mode = .plain) :
    Stays s.mode (s.lineStart c rest) ∨ ∃ fence, s.Turns fence (c :: rest) (s.lineStart c rest) := by
  rw [lineStart]
  split
  · exact .inl (stays_comment s rest)
  · split
    · exact .inl ⟨by simp, rfl⟩
    · split
      · exact .inl ⟨by simp, rfl⟩
      · split
        next fence opens =>
          exact .inr ⟨fence, rfl, rfl, Fence.isPrefixOf_of_at? opens, .inl ⟨plain, rfl⟩⟩
        next =>
          split
          next m found =>
            refine .inl ⟨?_, rfl⟩
            rintro fence
            have keyword := Keyword.isKeyword_of_at? found
            simp [show m.kind = .fence from fence, TokenKind.isKeyword, TokenKind.isHeader,
              TokenKind.isStep] at keyword
          next => exact .inl (stays_freeText { s with shown := .text } c rest)

lemma docString_cases {fence : Fence} {opened : Mark} (inside : s.mode = .docString fence opened) :
    Stays s.mode (s.docString c rest fence) ∨
      s.Turns fence (c :: rest) (s.docString c rest fence) := by
  rw [docString]
  split
  next closes =>
    exact .inr ⟨rfl, rfl, (Bool.and_eq_true_iff.mp closes).2, .inr ⟨opened, inside, rfl⟩⟩
  next => exact .inl ⟨by simp, rfl⟩

lemma look_cases :
    Stays s.mode (s.look c rest) ∨ ∃ fence, s.Turns fence (c :: rest) (s.look c rest) := by
  rw [look]
  split
  · exact .inl ⟨by simp, rfl⟩
  · split
    · refine .inl ⟨?_, rfl⟩
      simp only [Lexeme.padKind]
      split <;> simp
    · split
      next fence opened inside => exact (s.docString_cases c rest inside).imp_right fun h => ⟨fence, h⟩
      next outside =>
        rw [plain]
        split
        · exact s.lineStart_cases c rest outside
        · exact .inl ⟨by simp, rfl⟩
        · split
          · exact .inl (stays_comment s rest)
          · exact .inl (stays_freeText s c rest)
        · split
          · exact .inl ⟨by simp, rfl⟩
          · exact .inl (stays_tagLine { s with shown := .tags } c rest)
        · exact .inl (stays_tagLine s c rest)
        · exact .inl (stays_tableRow s c rest)
        · exact .inl (stays_freeText s c rest)

def lexemes (n : Nat) (text : List Char) : List Lexeme :=
  Lexeme.cut step s n text

def isInside : Bool :=
  s.mode.report?.isSome

lemma content_scan (n : Nat) (text : List Char) :
    (s.scan n text).content = Token.place s.mark (s.lexemes n text) := by
  induction text generalizing s n with
  | nil => simp [scan, lexemes, Lexeme.cut, Token.place]
  | cons c rest ih =>
    cases n with
    | zero => exact congrArg (List.cons _) (ih (s.step c rest).next _)
    | succ n => exact ih s n

lemma stop_scan (n : Nat) (text : List Char) :
    (s.scan n text).stop = Token.placeEnd s.mark (s.lexemes n text) := by
  induction text generalizing s n with
  | nil => simp [scan, lexemes, Lexeme.cut, Token.placeEnd]
  | cons c rest ih =>
    cases n with
    | zero => exact ih (s.step c rest).next _
    | succ n => exact ih s n

variable {s c rest}

lemma note?_of_stays (stays : Stays s.mode (s.look c rest)) :
    s.note? (s.step c rest) = (s.look c rest).openQuote.map fun width =>
      .reported ⟨.openString, s.mark, s.mark.offset + width⟩ := by
  have mode : (s.step c rest).next.mode = s.mode := stays.mode
  rw [note?, mode]
  cases s.mode <;> rfl

lemma note?_of_turns {fence : Fence} {text : List Char} (turns : s.Turns fence text (s.look c rest)) :
    s.note? (s.step c rest) =
      some (if s.isInside then .closed s.mark.position else .opened s.mark.position) := by
  have mode : (s.step c rest).next.mode = (s.look c rest).next.1 := rfl
  rw [note?, mode, isInside]
  rcases turns.mode with ⟨outside, opens⟩ | ⟨opened, inside, closes⟩
  · rw [outside, opens]
    rfl
  · rw [inside, closes]
    rfl

lemma isInside_of_stays (stays : Stays s.mode (s.look c rest)) :
    (s.step c rest).next.isInside = s.isInside :=
  congrArg (fun mode => mode.report?.isSome) stays.mode

lemma isInside_of_turns {fence : Fence} {text : List Char}
    (turns : s.Turns fence text (s.look c rest)) :
    (s.step c rest).next.isInside = !s.isInside := by
  change (s.look c rest).next.1.report?.isSome = _
  rw [isInside]
  rcases turns.mode with ⟨outside, opens⟩ | ⟨opened, inside, closes⟩
  · rw [outside, opens]
    rfl
  · rw [inside, closes]
    rfl

lemma notes_scan (s : Scanner) (n : Nat) (text : List Char) :
    (s.scan n text).notes = ScanNote.ofLexemes s.isInside s.mark (s.lexemes n text) := by
  induction text generalizing s n with
  | nil => simp [scan, lexemes, Lexeme.cut, ScanNote.ofLexemes]
  | cons c rest ih =>
    cases n with
    | succ n => exact ih s n
    | zero =>
      change (s.note? (s.step c rest)).toList ++ _ = ScanNote.ofLexemes _ _
        (Lexeme.ofCut (s.step c rest) c rest :: (s.step c rest).next.lexemes _ rest)
      rw [ih]
      rcases s.look_cases c rest with stays | ⟨fence, turns⟩
      · rw [ScanNote.ofLexemes_cons_unfenced stays.unfenced, note?_of_stays stays,
          isInside_of_stays stays]
        rfl
      · rw [ScanNote.ofLexemes_cons_fence turns.kind, note?_of_turns turns, isInside_of_turns turns]
        rfl

def unclosed (found : Option Token) : Option LexicalReport :=
  found.map fun t => ⟨.openDocString, t.start, t.stop.offset⟩

lemma report?_of_turns {fence : Fence} {found : Option Token} (agrees : s.mode.report? = unclosed found)
    (turns : s.Turns fence (c :: rest) (s.look c rest)) :
    (s.step c rest).next.mode.report? = unclosed (if found.isSome then none
      else some ⟨(s.step c rest).kind, c :: rest.take (s.step c rest).more, s.mark⟩) := by
  have text : c :: rest.take (s.step c rest).more = fence.marker := by
    rw [← Fence.take_marker turns.marker, ← List.take_succ_cons]
    exact congrArg (fun n => List.take (n + 1) (c :: rest)) turns.more
  change (s.look c rest).next.1.report? = _
  rcases turns.mode with ⟨outside, opens⟩ | ⟨opened, inside, closes⟩
  · rw [outside] at agrees
    cases found with
    | some t => cases agrees
    | none =>
      rw [opens, text]
      simp [unclosed, Mode.report?, Token.offset_stop, Fence.byteLength_marker]
  · rw [inside] at agrees
    cases found with
    | none => cases agrees
    | some t =>
      rw [closes]
      rfl

lemma openDocString_scan (s : Scanner) (n : Nat) (text : List Char) {found : Option Token}
    (agrees : s.mode.report? = unclosed found) :
    (s.scan n text).openDocString = unclosed (fenceBehind found (s.scan n text).content) := by
  induction text generalizing s n found with
  | nil =>
    rw [scan]
    exact agrees
  | cons c rest ih =>
    cases n with
    | succ n => exact ih s n agrees
    | zero =>
      change ((s.step c rest).next.scan _ rest).openDocString = unclosed (fenceBehind found (_ :: _))
      rcases s.look_cases c rest with stays | ⟨fence, turns⟩
      · rw [fenceBehind_cons_unfenced stays.unfenced]
        exact ih _ _ ((congrArg Mode.report? stays.mode).trans agrees)
      · rw [fenceBehind_cons_fence turns.kind]
        exact ih _ _ (report?_of_turns agrees turns)

end Scanner

end FeatureFile
