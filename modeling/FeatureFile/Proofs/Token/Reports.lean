import FeatureFile.Proofs.Token.Append

namespace FeatureFile

namespace ScanNote

def quoteReport? (m : Mark) (l : Lexeme) : Option LexicalReport :=
  if l.kind = .fence then none
  else l.openQuote.map fun width => ⟨.openString, m, m.offset + width⟩

def quoteReports : Mark → List Lexeme → List LexicalReport
  | _, [] => []
  | m, l :: rest => (quoteReport? m l).toList ++ quoteReports (m.advance l.kind l.text) rest

lemma filterMap_report?_ofLexemes (inside : Bool) (m : Mark) (ls : List Lexeme) :
    (ofLexemes inside m ls).filterMap report? = quoteReports m ls := by
  fun_induction ofLexemes inside m ls with
  | case1 => rfl
  | case2 inside m l rest after fence ih =>
    rw [List.filterMap_cons_none (by split <;> rfl), ih]
    simp [quoteReports, quoteReport?, fence, after]
  | case3 inside m l rest after other width quote ih =>
    rw [List.filterMap_cons_some (by rfl), ih]
    simp [quoteReports, quoteReport?, other, quote, after]
  | case4 inside m l rest after other closed ih =>
    rw [ih]
    simp [quoteReports, quoteReport?, closed, after]

lemma quoteReports_append (m : Mark) (ls more : List Lexeme) :
    quoteReports m (ls ++ more) = quoteReports m ls ++ quoteReports (Token.placeEnd m ls) more := by
  induction ls generalizing m with
  | nil => rfl
  | cons l ls ih => simp [quoteReports, Token.placeEnd, ih]

lemma quoteReports_eq_nil (m : Mark) {ls : List Lexeme} (closed : ∀ l ∈ ls, l.openQuote = none) :
    quoteReports m ls = [] := by
  induction ls generalizing m with
  | nil => rfl
  | cons l ls ih =>
    obtain ⟨first, rest⟩ := List.forall_mem_cons.mp closed
    simp [quoteReports, quoteReport?, first, ih _ rest]

lemma of_mem_quoteReport? {m : Mark} {l : Lexeme} {r : LexicalReport}
    (h : r ∈ (quoteReport? m l).toList) : r.fault = .openString ∧ r.start = m := by
  rw [quoteReport?] at h
  split at h
  · cases h
  · obtain ⟨width, -, rfl⟩ := Option.map_eq_some_iff.mp (Option.mem_toList.mp h)
    exact ⟨rfl, rfl⟩

lemma fault_of_mem_quoteReports {m : Mark} {ls : List Lexeme} {r : LexicalReport}
    (h : r ∈ quoteReports m ls) : r.fault = .openString := by
  induction ls generalizing m with
  | nil => cases h
  | cons l ls ih =>
    rcases List.mem_append.mp h with h | h
    · exact (of_mem_quoteReport? h).1
    · exact ih h

lemma offset_of_mem_quoteReports {m : Mark} {ls : List Lexeme} {r : LexicalReport}
    (some : ∀ l ∈ ls, l.text ≠ []) (h : r ∈ quoteReports m ls) :
    m.offset ≤ r.start.offset ∧ r.start.offset < (Token.placeEnd m ls).offset := by
  induction ls generalizing m with
  | nil => cases h
  | cons l ls ih =>
    obtain ⟨first, others⟩ := List.forall_mem_cons.mp some
    have positive := Text.byteLength_pos first
    have stop := Token.offset_placeEnd (m.advance l.kind l.text) ls
    rw [Mark.offset_advance] at stop
    rw [Token.placeEnd]
    rcases List.mem_append.mp h with h | h
    · rw [(of_mem_quoteReport? h).2]
      omega
    · have below := ih others h
      rw [Mark.offset_advance] at below
      omega

lemma pairwise_quoteReports (m : Mark) {ls : List Lexeme} (some : ∀ l ∈ ls, l.text ≠ []) :
    (quoteReports m ls).Pairwise fun r s => r.start.offset < s.start.offset := by
  induction ls generalizing m with
  | nil => exact .nil
  | cons l ls ih =>
    obtain ⟨first, others⟩ := List.forall_mem_cons.mp some
    refine List.pairwise_append.mpr ⟨?_, ih _ others, fun r hr s hs => ?_⟩
    · cases quoteReport? m l with
      | none => exact .nil
      | some report => exact List.pairwise_singleton _ _
    · have alone : r ∈ quoteReports m [l] := List.mem_append_left _ hr
      have here := (offset_of_mem_quoteReports (by simpa using first) alone).2
      have below := (offset_of_mem_quoteReports others hs).1
      exact Nat.lt_of_lt_of_le here below

end ScanNote

namespace Stream

def quotes (text : List Char) : List LexicalReport :=
  ScanNote.quoteReports (origin text) (Lexeme.ofText (Text.stripMark text))

lemma filterMap_report?_notes (text : List Char) :
    (ofText text).notes.filterMap ScanNote.report? = quotes text := by
  rw [notes_ofText, ScanNote.filterMap_report?_ofLexemes, quotes]

lemma reports_eq (text : List Char) :
    (ofText text).reports = quotes text ++ (ofText text).openDocString.toList := by
  rw [reports, filterMap_report?_notes]

lemma fault_of_mem_quotes {text : List Char} {r : LexicalReport} (h : r ∈ quotes text) :
    r.fault ≠ .openDocString := by
  rw [ScanNote.fault_of_mem_quoteReports h]
  decide

lemma mem_openDocString {text : List Char} {r : LexicalReport} :
    r ∈ (ofText text).openDocString ↔ ∃ t, openFence (ofText text).content = some t ∧
      r = ⟨.openDocString, t.start, t.stop.offset⟩ := by
  rw [openDocString_ofText, Option.mem_def, Option.map_eq_some_iff]
  simp only [eq_comm]

lemma mem_reports_of_ne {text : List Char} {r : LexicalReport} (other : r.fault ≠ .openString) :
    r ∈ (ofText text).reports ↔ r ∈ (ofText text).openDocString := by
  rw [reports_eq, List.mem_append, Option.mem_toList]
  exact or_iff_right fun h => other (ScanNote.fault_of_mem_quoteReports h)

lemma ofText_behind {above more : List Char} (some : above ≠ []) (parted : Text.IsParted above more)
    (closed : openFence (ofText above).content = none) :
    (ofText (above ++ more)).content =
        (ofText above).content ++ Token.place (ofText above).stop (Lexeme.ofText more) ∧
      (ofText (above ++ more)).stop = Token.placeEnd (ofText above).stop (Lexeme.ofText more) ∧
      quotes (above ++ more) =
        quotes above ++ ScanNote.quoteReports (ofText above).stop (Lexeme.ofText more) := by
  simp only [ofText_eq, quotes, origin_append some, lexemes_append some parted closed,
    Token.place_append, Token.placeEnd_append, ScanNote.quoteReports_append]
  trivial

end Stream

namespace Lexeme

lemma openQuote_of_mem_docLine {n : Nat} {text : List Char} {l : Lexeme}
    (h : l ∈ cut docLine () n text) : l.openQuote = none := by
  induction text generalizing n with
  | nil => cases h
  | cons c rest ih =>
    cases n with
    | succ n => exact ih h
    | zero =>
      rcases List.mem_cons.mp h with rfl | h
      · change (docLine () c rest).openQuote = none
        rw [docLine]
        split <;> rfl
      · exact ih h

lemma openQuote_of_mem_ofContent {within : Option Fence} {content : List Char}
    (stays : Fence.behind within (content.dropWhile Text.isPad) ≠ none) {l : Lexeme}
    (h : l ∈ ofContent within content) : l.openQuote = none := by
  rcases List.mem_append.mp h with h | h
  · obtain ⟨c, -, rfl⟩ := List.mem_map.mp h
    rfl
  · cases within with
    | none =>
      dsimp only at h
      rw [Fence.behind] at stays
      unfold plainLine at h
      split at h
      case h_5 =>
        split at h
        case h_1 =>
          rcases List.mem_cons.mp h with rfl | h
          · rfl
          · exact openQuote_of_mem_docLine h
        case h_2 unfenced => exact absurd unfenced stays
      all_goals simp_all [Fence.at?, Fence.marker, List.isPrefixOf]
    | some f =>
      dsimp only at h
      have inner : ¬ f.marker.isPrefixOf (content.dropWhile Text.isPad) :=
        fun closes => stays (if_pos closes)
      rw [fencedLine, if_neg inner] at h
      exact openQuote_of_mem_docLine h

end Lexeme

namespace Fence

lemma quoteReports_before (m : Mark) {found : Option Token} {within : Option Fence}
    (agrees : found.isSome = within.isSome) {ls : List Text.SourceLine} {t : Token}
    (opened : fenceBehind found (Token.place m (Lexeme.ofLines within ls)) = some t) :
    ∀ r ∈ ScanNote.quoteReports m (Lexeme.ofLines within ls), r.start.offset < t.start.offset := by
  induction ls generalizing m found within with
  | nil => simp [Lexeme.ofLines, ScanNote.quoteReports]
  | cons line rest ih =>
    have behind := isSome_fenceBehind_line m agrees line
    rw [Lexeme.ofLines, Token.place_append, fenceBehind_append] at opened
    intro r hr
    rw [Lexeme.ofLines, ScanNote.quoteReports_append] at hr
    rcases List.mem_append.mp hr with hr | hr
    case inr => exact ih _ behind opened r hr
    case inl =>
      by_cases closed : Fence.behind within (line.content.dropWhile Text.isPad) = none
      · -- The fence comes later, so it lies behind the whole line.
        rw [closed, Option.isSome_none, Option.isSome_eq_false_iff, Option.isNone_iff_eq_none]
          at behind
        rw [behind] at opened
        have later := (mem_of_fenceBehind opened).resolve_left (by simp)
        have nonempty : ∀ l ∈ Lexeme.ofContent within line.content ++ Lexeme.ofEnding line.ending,
            l.text ≠ [] := by
          intro l hl
          have here : l ∈ Lexeme.ofLines within [line] := List.mem_append_left _ hl
          exact Lexeme.text_ne_nil_of_mem_ofLines here
        exact Nat.lt_of_lt_of_le (ScanNote.offset_of_mem_quoteReports nonempty hr).2
          (Token.offset_le_of_mem_place later)
      · have quiet : ∀ l ∈ Lexeme.ofContent within line.content ++ Lexeme.ofEnding line.ending,
            l.openQuote = none := by
          refine List.forall_mem_append.mpr ⟨fun l => Lexeme.openQuote_of_mem_ofContent closed, ?_⟩
          cases line.ending <;> simp [Lexeme.ofEnding]
        rw [ScanNote.quoteReports_eq_nil m quiet] at hr
        cases hr

end Fence

lemma isSome_fenceBehind_iff (found : Option Token) (ts : List Token) :
    (fenceBehind found ts).isSome ↔
      (found.toList.length + ts.countP (·.kind = .fence)) % 2 = 1 := by
  induction ts generalizing found with
  | nil => cases found <;> simp [fenceBehind]
  | cons t ts ih =>
    by_cases fence : t.kind = .fence
    · rw [fenceBehind_cons_fence fence, ih, List.countP_cons_of_pos (by simpa using fence)]
      cases found <;> simp <;> omega
    · have same : fenceBehind found (t :: ts) = fenceBehind found ts := by simp [fenceBehind, fence]
      rw [same, ih, List.countP_cons_of_neg (by simpa using fence)]

lemma getLast?_of_fenceBehind {found : Option Token} {ts : List Token} {t : Token}
    (opened : fenceBehind found ts = some t) :
    (found.toList ++ ts.filter (·.kind = .fence)).getLast? = some t := by
  induction ts generalizing found with
  | nil =>
    obtain rfl : found = some t := opened
    rfl
  | cons u ts ih =>
    by_cases fence : u.kind = .fence
    · rw [fenceBehind_cons_fence fence] at opened
      have last := ih opened
      rw [List.filter_cons_of_pos (by simpa using fence)]
      cases found with
      | none => exact last
      | some v =>
        rw [Option.isSome_some, if_pos rfl, Option.toList_none, List.nil_append] at last
        rw [List.append_cons, List.getLast?_append, last, Option.some_or]
    · have same : fenceBehind found (u :: ts) = fenceBehind found ts := by simp [fenceBehind, fence]
      rw [same] at opened
      rw [List.filter_cons_of_neg (by simpa using fence)]
      exact ih opened

def LexicalReport.shift (d : Shift) (r : LexicalReport) : LexicalReport :=
  ⟨r.fault, r.start.shift d, r.stop + d.bytes⟩

lemma ScanNote.quoteReports_shift (d : Shift) (m : Mark) (ls : List Lexeme) :
    quoteReports (m.shift d) ls = (quoteReports m ls).map (LexicalReport.shift d) := by
  induction ls generalizing m with
  | nil => rfl
  | cons l ls ih =>
    have here : (quoteReport? (m.shift d) l).toList =
        (quoteReport? m l).toList.map (LexicalReport.shift d) := by
      rw [quoteReport?, quoteReport?]
      split
      · rfl
      · cases l.openQuote with
        | none => rfl
        | some width => simp [LexicalReport.shift, Mark.shift, Nat.add_right_comm]
    rw [quoteReports, quoteReports, Mark.advance_shift, ih, here, List.map_append]

lemma fenceBehind_shift (d : Shift) (found : Option Token) (ts : List Token) :
    fenceBehind (found.map (Token.shift d)) (ts.map (Token.shift d)) =
      (fenceBehind found ts).map (Token.shift d) := by
  induction ts generalizing found with
  | nil => rfl
  | cons t ts ih =>
    by_cases fence : t.kind = .fence
    · have moved : (t.shift d).kind = .fence := fence
      rw [List.map_cons, fenceBehind_cons_fence moved, fenceBehind_cons_fence fence, ← ih]
      cases found <;> rfl
    · simpa [fenceBehind, fence] using ih found

lemma Stream.openDocString_shift {text text' : List Char} {d : Shift}
    (fence : openFence (ofText text').content =
      (openFence (ofText text).content).map (Token.shift d)) :
    (ofText text').openDocString = (ofText text).openDocString.map (LexicalReport.shift d) := by
  rw [openDocString_ofText, openDocString_ofText, fence]
  cases openFence (ofText text).content with
  | none => rfl
  | some t =>
    have stop := congrArg Mark.offset (t.stop_shift d)
    simp only [Option.map_some, stop]
    rfl

namespace Lexeme

def feed : Lexeme :=
  ⟨.eol, ['\n'], none⟩

lemma ofContent_nil (within : Option Fence) : ofContent within [] = [] := by
  cases within with
  | none => rfl
  | some fence => cases fence <;> rfl

lemma ofText_feeds (n : Nat) : ofText (List.replicate n '\n') = List.replicate n feed := by
  induction n with
  | zero => rfl
  | succ n ih =>
    have first : Text.lines ('\n' :: List.replicate n '\n') =
        ⟨[], ['\n']⟩ :: Text.lines (List.replicate n '\n') :=
      (Text.lines.eq_3 _ _ (by simp)).trans (if_pos rfl)
    rw [List.replicate_succ, ofText, first, ofLines, ofContent_nil, List.replicate_succ, ← ih]
    rfl

end Lexeme

namespace Stream

lemma kind_of_mem_feeds {n : Nat} {t : Token} (h : t ∈ (ofText (List.replicate n '\n')).content) :
    t.kind = .eol := by
  rw [content_ofText, Text.stripMark_of_unmarked (Text.head?_replicate_feed n),
    Lexeme.ofText_feeds] at h
  refine Token.kind_of_mem_place (p := (· = .eol)) (fun k hk => ?_) t h
  obtain ⟨l, hl, rfl⟩ := List.mem_map.mp hk
  rw [List.eq_of_mem_replicate hl]
  rfl

lemma reports_feeds (n : Nat) : (ofText (List.replicate n '\n')).reports = [] := by
  have unfenced : openFence (ofText (List.replicate n '\n')).content = none :=
    fenceBehind_of_unfenced (fun t ht => by simp [kind_of_mem_feeds ht]) none
  have quiet : (ofText (List.replicate n '\n')).notes.filterMap ScanNote.report? = [] := by
    rw [notes_ofText, Text.stripMark_of_unmarked (Text.head?_replicate_feed n), Lexeme.ofText_feeds,
      ScanNote.filterMap_report?_ofLexemes]
    exact ScanNote.quoteReports_eq_nil _ (by simp [Lexeme.feed])
  rw [reports, quiet, openDocString_ofText, unfenced]
  rfl

lemma isEnded_feeds (n : Nat) : Text.IsEnded (List.replicate n '\n') := by
  cases n with
  | zero => exact .inl rfl
  | succ n => exact .inr (by rw [List.replicate_succ', List.getLast?_concat])

end Stream

end FeatureFile
