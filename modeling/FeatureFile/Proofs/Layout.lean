import FeatureFile.Proofs.Alike.Insert
import FeatureFile.Proofs.Alike.Parse
import FeatureFile.Proofs.Locality

/-!
Layout and comments are transparent. Where no doc string is open, a blank line more, a line with a
comment or an indented line changes nothing but places: the lexemes that are added are skipped by
every reader of lines, and all others stay in their order.
-/

namespace FeatureFile

open Text (IsEnded isBreak isPad)

namespace Lexeme

structure IsIdle (l : Lexeme) : Prop where
  trivia : l.kind.isTrivia
  closed : l.openQuote = none

def IsTransparent (added : List Char) : Prop :=
  ∀ rest, ∃ idle, (∀ l ∈ idle, IsIdle l) ∧ ofText (added ++ rest) = idle ++ ofText rest

lemma IsTransparent.append {added more : List Char} (h : IsTransparent added)
    (h' : IsTransparent more) : IsTransparent (added ++ more) := by
  intro rest
  obtain ⟨idle, quiet, text⟩ := h (more ++ rest)
  obtain ⟨idle', quiet', text'⟩ := h' rest
  refine ⟨idle ++ idle', List.forall_mem_append.mpr ⟨quiet, quiet'⟩, ?_⟩
  rw [List.append_assoc, text, text', List.append_assoc]

lemma isIdle_pad (c : Char) : (pad c).IsIdle := by
  refine ⟨?_, rfl⟩
  rw [pad, padKind]
  split <;> rfl

lemma ofText_pad {c : Char} (space : isPad c) (text : List Char) :
    ofText (c :: text) = pad c :: ofText text := by
  rw [ofText, ofText, Text.lines_inline (Text.isBreak_of_isPad space)]
  cases Text.lines text with
  | nil => simp [Text.prependChar, ofLines, ofContent, ofEnding, plainLine, space]
  | cons line rest => simp [Text.prependChar, ofLines, ofContent, space]

lemma isTransparent_pads {pads : List Char} (all : ∀ c ∈ pads, isPad c) : IsTransparent pads := by
  induction pads with
  | nil => exact fun rest => ⟨[], by simp, rfl⟩
  | cons c pads ih =>
    obtain ⟨first, others⟩ := List.forall_mem_cons.mp all
    intro rest
    obtain ⟨idle, quiet, text⟩ := ih others rest
    refine ⟨pad c :: idle, List.forall_mem_cons.mpr ⟨isIdle_pad c, quiet⟩, ?_⟩
    rw [List.cons_append, ofText_pad first, text, List.cons_append]

lemma isTransparent_comment {comment : List Char} (sign : comment = [] ∨ comment.head? = some '#')
    (inline : ∀ c ∈ comment, isBreak c = false) : IsTransparent (comment ++ ['\n']) := by
  intro rest
  have eol : IsIdle ⟨.eol, ['\n'], none⟩ := ⟨rfl, rfl⟩
  rw [List.append_assoc, ofText, Text.lines_line inline (.inl rfl) (by simp), ofLines]
  cases comment with
  | nil => exact ⟨[⟨.eol, ['\n'], none⟩], by simpa using eol, rfl⟩
  | cons c more =>
    obtain rfl : c = '#' := by simpa using sign
    have line : IsIdle ⟨.comment, '#' :: more, none⟩ := ⟨rfl, rfl⟩
    exact ⟨[⟨.comment, '#' :: more, none⟩, ⟨.eol, ['\n'], none⟩], by simpa using ⟨line, eol⟩, rfl⟩

end Lexeme

def Likeness.insertion (seam count : Nat) : Likeness where
  token t u := t.kind = u.kind ∧ t.text = u.text ∧
    u.start.offset = t.start.offset + if t.start.offset < seam then 0 else count
  mark _ _ := True
  kind h := h.1
  start _ := trivial
  stop _ := trivial

namespace Likeness

lemma keepsOrder_insertion (seam count : Nat) : (insertion seam count).KeepsOrder := by
  rintro t u t' u' ⟨-, -, moved⟩ ⟨-, -, moved'⟩
  rw [Token.SameOrder]
  simp only [moved, moved']
  split <;> split <;> omega

variable {seam count : Nat}

lemma insertion_before {ts : List Token} (before : ∀ t ∈ ts, t.start.offset < seam) :
    List.Forall₂ (insertion seam count).token ts ts :=
  List.forall₂_same.mpr fun t ht => ⟨rfl, rfl, by simp [before t ht]⟩

lemma insertion_behind {m n : Mark} (behind : seam ≤ m.offset) (moved : n.offset = m.offset + count)
    (ls : List Lexeme) :
    List.Forall₂ (insertion seam count).token (Token.place m ls) (Token.place n ls) ∧
      (insertion seam count).token ⟨.eof, [], Token.placeEnd m ls⟩
        ⟨.eof, [], Token.placeEnd n ls⟩ := by
  induction ls generalizing m n with
  | nil => exact ⟨.nil, rfl, rfl, by simp [Token.placeEnd, moved, behind.not_gt]⟩
  | cons l ls ih =>
    have here : (insertion seam count).token ⟨l.kind, l.text, m⟩ ⟨l.kind, l.text, n⟩ :=
      ⟨rfl, rfl, by simp [moved, behind.not_gt]⟩
    obtain ⟨rest, stop⟩ := ih (m := m.advance l.kind l.text) (n := n.advance l.kind l.text)
      (by simp; omega) (by simp; omega)
    exact ⟨.cons here rest, stop⟩

end Likeness

namespace Stream

variable {above : List Char}

lemma offset_lt_stop {t : Token} (h : t ∈ (ofText above).content) :
    t.start.offset < (ofText above).stop.offset :=
  (List.pairwise_append.mp (pairwise_tokens above)).2.2 t h _ List.mem_cons_self

variable {below added : List Char} {idle : List Lexeme}

lemma offset_placeEnd_idle (m : Mark)
    (inserts : Lexeme.ofText (added ++ below) = idle ++ Lexeme.ofText below) :
    (Token.placeEnd m idle).offset = m.offset + Text.byteLength added := by
  have text := congrArg (List.flatMap Lexeme.text) inserts
  rw [Lexeme.flatMap_text_ofText, List.flatMap_append, Lexeme.flatMap_text_ofText,
    List.append_left_inj] at text
  rw [Token.offset_placeEnd, ← text]

def insertion (above added : List Char) : Likeness :=
  .insertion (ofText above).stop.offset (Text.byteLength added)

lemma insertion_above (above added : List Char) :
    List.Forall₂ (insertion above added).token (ofText above).content (ofText above).content :=
  Likeness.insertion_before fun _ => offset_lt_stop

variable (above) in
lemma insertion_below (inserts : Lexeme.ofText (added ++ below) = idle ++ Lexeme.ofText below) :
    let m := (ofText above).stop
    let n := Token.placeEnd m idle
    List.Forall₂ (insertion above added).token (Token.place m (Lexeme.ofText below))
        (Token.place n (Lexeme.ofText below)) ∧
      (insertion above added).token ⟨.eof, [], Token.placeEnd m (Lexeme.ofText below)⟩
        ⟨.eof, [], Token.placeEnd n (Lexeme.ofText below)⟩ :=
  Likeness.insertion_behind (Nat.le_refl _) (offset_placeEnd_idle _ inserts) _

variable (some : above ≠ []) (ended : IsEnded above)
  (closed : openFence (ofText above).content = none) (quiet : ∀ l ∈ idle, l.IsIdle)
  (inserts : Lexeme.ofText (added ++ below) = idle ++ Lexeme.ofText below)

include some ended closed inserts

lemma insertion_eof :
    (insertion above added).token (ofText (above ++ below)).eof
      (ofText (above ++ (added ++ below))).eof := by
  have stop := (insertion_below above inserts).2
  rwa [← Token.placeEnd_append, ← inserts, ← (ofText_behind some (ended.parted _) closed).2.1,
    ← (ofText_behind some (ended.parted _) closed).2.1] at stop

include quiet

lemma insertion_lines :
    Opening.ReadAlike (insertion above added) (RawLine.ofTokens (ofText (above ++ below)).content)
      (RawLine.ofTokens (ofText (above ++ (added ++ below))).content) := by
  have trivia : ∀ t ∈ Token.place (ofText above).stop idle, t.kind.isTrivia :=
    Token.kind_of_mem_place (p := fun k => k.isTrivia)
      (List.forall_mem_map.mpr fun l hl => (quiet l hl).trivia)
  have tokens := (insertion_below above inserts).1
  have read := (Opening.readAlike_of_alike (RawLine.alike_ofTokens tokens)).ofTokens_append trivia
  rw [(ofText_behind some (ended.parted _) closed).1,
    (ofText_behind some (ended.parted _) closed).1, inserts,
    Token.place_append, ofTokens_append ended.endsLine, ofTokens_append ended.endsLine]
  exact read.append (scanned_ofText above) (closing_ne_none closed)
    (RawLine.alike_ofTokens (insertion_above above added))

lemma insertion_reports :
    List.Forall₂ (LexicalReport.Alike (insertion above added)) (ofText (above ++ below)).reports
      (ofText (above ++ (added ++ below))).reports := by
  have front := insertion_above above added
  have tokens := (insertion_below above inserts).1
  have quotes := List.rel_append (alike_quotes (ScanNote.sameSort_refl _) front)
    (ScanNote.alike_quoteReports (ScanNote.sameSort_refl _) tokens)
  have unfenced : ∀ t ∈ Token.place (ofText above).stop idle, t.kind ≠ .fence := by
    refine Token.kind_of_mem_place (p := (· ≠ .fence)) (List.forall_mem_map.mpr ?_)
    intro l hl fence
    have trivia := (quiet l hl).trivia
    rw [fence] at trivia
    cases trivia
  have fence := alike_fenceBehind (L := insertion above added) .none tokens
  rw [reports_eq, reports_eq, (ofText_behind some (ended.parted _) closed).2.2,
    (ofText_behind some (ended.parted _) closed).2.2, inserts, ScanNote.quoteReports_append,
    ScanNote.quoteReports_eq_nil _ fun l hl => (quiet l hl).closed, List.nil_append]
  refine List.rel_append quotes (alike_openDocString ?_)
  rw [(ofText_behind some (ended.parted _) closed).1, (ofText_behind some (ended.parted _) closed).1,
    inserts, Token.place_append, openFence_eq, openFence_eq, fenceBehind_append, fenceBehind_append,
    fenceBehind_append, ← openFence_eq, closed, fenceBehind_of_unfenced unfenced]
  exact fence

end Stream

namespace Parsed

structure SameButPlaces (p q : Parsed) : Prop where
  root : p.root.Mirrors (fun t u => t.kind = u.kind ∧ t.text = u.text) (fun _ _ => True) q.root
  diagnostics : List.Forall₂ (fun d e => d.fault = e.fault ∧ d.severity = e.severity)
    p.diagnostics q.diagnostics

variable {above added pads comment : List Char}

lemma sameButPlaces_insert (options : Options) (below : List Char)
    (feed : above.getLast? = some '\n')
    (closed : ∀ r ∈ (Stream.ofText above).reports, r.fault ≠ .openDocString)
    (transparent : Lexeme.IsTransparent added) :
    SameButPlaces (parse options (above ++ below)) (parse options (above ++ (added ++ below))) := by
  have nonempty : above ≠ [] := by
    rintro rfl
    cases feed
  have ended : IsEnded above := .inr feed
  have unfenced := Stream.openFence_eq_none closed
  obtain ⟨idle, quiet, inserts⟩ := transparent below
  have eof := Stream.insertion_eof nonempty ended unfenced inserts
  have lines := Stream.insertion_lines nonempty ended unfenced quiet inserts
  have reports := Stream.insertion_reports nonempty ended unfenced quiet inserts
  have root := alike_root options eof lines
  have order := Likeness.keepsOrder_insertion (Stream.ofText above).stop.offset
    (Text.byteLength added)
  have diagnostics := alike_diagnostics options order eof lines reports
  refine ⟨root.mirrors (fun t u same => ⟨same.1, same.2.1⟩) fun _ _ _ => trivial, ?_⟩
  exact diagnostics.imp fun d e diagnostic => ⟨diagnostic.fault, diagnostic.severity⟩

/-- Behind whole lines that leave no doc string open, it makes no difference whether the next line
is indented, and whether a blank line or one with a comment stands in between. -/
theorem parse_insert (options : Options) (below : List Char) (feed : above.getLast? = some '\n')
    (closed : ∀ r ∈ (Stream.ofText above).reports, r.fault ≠ .openDocString)
    (padding : ∀ c ∈ pads, isPad c) (sign : comment = [] ∨ comment.head? = some '#')
    (inline : ∀ c ∈ comment, isBreak c = false) :
    SameButPlaces (parse options (above ++ below))
        (parse options (above ++ pads ++ comment ++ ['\n'] ++ below)) ∧
      SameButPlaces (parse options (above ++ below)) (parse options (above ++ pads ++ below)) := by
  have indent := Lexeme.isTransparent_pads padding
  have line := indent.append (Lexeme.isTransparent_comment sign inline)
  have inserted := sameButPlaces_insert options below feed closed line
  have indented := sameButPlaces_insert options below feed closed indent
  simp only [List.append_assoc] at inserted indented ⊢
  exact ⟨inserted, indented⟩

theorem parse_insert_table :
    let above := "@t|\nRule:\nScenario Outline: o\n \"\"\"\n#\n \"\"\" u\nGiven \"g\n".toList
    let below := "|a|\n|b|c|\n```".toList
    let pads := "\t ".toList
    let comment := "# c".toList
    above.getLast? = some '\n' ∧
      (∀ r ∈ (Stream.ofText above).reports, r.fault ≠ .openDocString) ∧
      (∀ c ∈ pads, isPad c) ∧ comment.head? = some '#' ∧ (∀ c ∈ comment, isBreak c = false) ∧
      SameButPlaces (parse ⟨true⟩ (above ++ below))
        (parse ⟨true⟩ (above ++ pads ++ comment ++ ['\n'] ++ below)) ∧
      SameButPlaces (parse ⟨true⟩ (above ++ below)) (parse ⟨true⟩ (above ++ pads ++ below)) := by
  intro above below pads comment
  have feed : above.getLast? = some '\n' := by decide +kernel
  have closed : ∀ r ∈ (Stream.ofText above).reports, r.fault ≠ .openDocString := by decide +kernel
  have padding : ∀ c ∈ pads, isPad c := List.all_eq_true.mp (by decide +kernel)
  have sign : comment.head? = some '#' := by decide +kernel
  have inline : ∀ c ∈ comment, isBreak c = false := by simp [comment, isBreak]
  exact ⟨feed, closed, padding, sign, inline,
    parse_insert ⟨true⟩ below feed closed padding (.inr sign) inline⟩

end Parsed

end FeatureFile
