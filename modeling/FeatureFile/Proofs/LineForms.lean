import FeatureFile.Proofs.Token.Reports

namespace FeatureFile

inductive PlainForm : List Token → Prop
  | blank : PlainForm []
  | comment {t : Token} : t.kind = .comment → PlainForm [t]
  | header {t colon : Token} {ts : List Token} :
      t.kind.isHeader → colon.kind = .colon → colon.text = [':'] → (∀ u ∈ ts, u.kind.isFree) →
      PlainForm (t :: colon :: ts)
  | bareStep {t : Token} : t.kind.isStep → PlainForm [t]
  | remarkedStep {t comment : Token} :
      t.kind.isStep → comment.kind = .comment → PlainForm [t, comment]
  | step {t pad : Token} {ts : List Token} :
      t.kind.isStep → pad.kind.isPad → (∀ u ∈ ts, u.kind.isFree) → PlainForm (t :: pad :: ts)
  | row {t : Token} {ts : List Token} :
      t.kind = .pipe → (∀ u ∈ ts, u.kind.isRowPart) → PlainForm (t :: ts)
  | tags {t : Token} {ts : List Token} (comment : Option Token) :
      t.kind = .atSign → (∀ u ∈ ts, u.kind.isTagPart) → (∀ c ∈ comment, c.kind = .comment) →
      PlainForm (t :: ts ++ comment.toList)
  | prose {t : Token} {ts : List Token} :
      t.kind.isFree → t.kind.isPad = false → (∀ u ∈ ts, u.kind.isFree) → PlainForm (t :: ts)

inductive FenceForm (f : Fence) (behind : TokenKind → Bool) : List Token → Prop
  | fence {t : Token} {ts : List Token} :
      t.kind = .fence → t.text = f.marker → (∀ u ∈ ts, behind u.kind) → FenceForm f behind (t :: ts)

structure InnerForm (f : Fence) (ts : List Token) : Prop where
  verbatim : ∀ u ∈ ts, u.kind.isVerbatim
  unclosed : ¬ f.marker <+: ts.flatMap (·.text)

inductive LineForms : Option Fence → List RawLine → Prop
  | nil (within : Option Fence) : LineForms within []
  | plain {l : RawLine} {rest : List RawLine} :
      PlainForm l.body → LineForms none rest → LineForms none (l :: rest)
  | opening {f : Fence} {l : RawLine} {rest : List RawLine} :
      FenceForm f TokenKind.isVerbatim l.body → LineForms (some f) rest → LineForms none (l :: rest)
  | inner {f : Fence} {l : RawLine} {rest : List RawLine} :
      InnerForm f l.body → LineForms (some f) rest → LineForms (some f) (l :: rest)
  | closing {f : Fence} {l : RawLine} {rest : List RawLine} :
      FenceForm f TokenKind.isFree l.body → LineForms none rest → LineForms (some f) (l :: rest)

namespace Token

variable (m : Mark) {text : List Char}

lemma plainForm_keywordLine {k : Keyword.Match} (inline : ∀ c ∈ text, Text.isBreak c = false)
    (h : Keyword.at? text = some k) : PlainForm (place m (Lexeme.keywordLine k text)) := by
  have keyword := Keyword.isKeyword_of_at? h
  rw [Lexeme.keywordLine]
  cases header : k.kind.isHeader with
  | true =>
    obtain ⟨after, rest⟩ := Keyword.colon_of_at? h header
    simp only [rest, if_true, place]
    exact .header header rfl rfl (kind_of_mem_place Lexeme.isFree_of_mem_cut)
  | false =>
    have step : k.kind.isStep := by simpa [TokenKind.isKeyword, header] using keyword
    cases rest : text.drop k.length with
    | nil => exact .bareStep step
    | cons c after =>
      simp only [Bool.false_eq_true, if_false, place]
      split
      · exact .remarkedStep step rfl
      case isFalse other =>
        have unbroken : Text.isBreak c = false :=
          inline c (List.mem_of_mem_drop (rest ▸ List.mem_cons_self))
        have pad := Keyword.isPad_of_at? h header rest unbroken other
        have cut : Lexeme.cut Lexeme.freeText none 0 (c :: after) =
            Lexeme.pad c :: Lexeme.cut Lexeme.freeText (some c) 0 after := by
          simp [Lexeme.cut, Lexeme.ofCut, Lexeme.freeText, pad, Lexeme.pad]
        rw [cut, place]
        exact .step step (Lexeme.isPad_padKind c) (kind_of_mem_place Lexeme.isFree_of_mem_cut)

lemma plainForm_tags {sign : Token} (kind : sign.kind = .atSign) (rest : List Char) :
    PlainForm (sign :: place m (Lexeme.cut Lexeme.tagLine true 0 rest)) := by
  obtain ⟨ks, more, kinds, parts, last⟩ := Lexeme.kinds_cut_tagLine true 0 rest
  rw [← map_kind_place m] at kinds
  obtain ⟨ts, us, whole, rfl, rfl⟩ := List.map_eq_append_iff.mp kinds
  have tagParts : ∀ u ∈ ts, u.kind.isTagPart := List.forall_mem_map.mp parts
  rw [whole]
  rcases last with nothing | remark
  · obtain rfl := List.map_eq_nil_iff.mp nothing
    exact .tags none kind tagParts (by simp)
  · obtain ⟨c, rfl, comment⟩ := List.map_eq_singleton_iff.mp remark
    exact .tags (some c) kind tagParts (by simpa using comment)

lemma plainForm_plainLine (unpadded : ∀ c ∈ text.head?, Text.isPad c = false)
    (inline : ∀ c ∈ text, Text.isBreak c = false) (unfenced : Fence.at? text = none) :
    PlainForm (place m (Lexeme.plainLine text)) := by
  unfold Lexeme.plainLine
  split
  case h_1 => exact .blank
  case h_2 rest => exact .comment rfl
  case h_3 rest =>
    have cut : Lexeme.cut Lexeme.tableRow () 0 ('|' :: rest) =
        ⟨.pipe, ['|'], none⟩ :: Lexeme.cut Lexeme.tableRow () 0 rest := by
      simp [Lexeme.cut, Lexeme.ofCut, Lexeme.tableRow, Text.isPad]
    rw [cut, place]
    exact .row rfl (kind_of_mem_place Lexeme.isRowPart_of_mem_cut)
  case h_4 rest =>
    have cut : Lexeme.cut Lexeme.tagLine false 0 ('@' :: rest) =
        ⟨.atSign, ['@'], none⟩ :: Lexeme.cut Lexeme.tagLine true 0 rest := by
      simp [Lexeme.cut, Lexeme.ofCut, Lexeme.tagLine, Text.isPad]
    rw [cut, place]
    exact plainForm_tags _ rfl rest
  case h_5 nonempty _ _ _ =>
    split
    case h_1 f found => simp [unfenced] at found
    case h_2 =>
      split
      case h_1 k found => exact plainForm_keywordLine m inline found
      case h_2 =>
        cases text with
        | nil => exact absurd rfl nonempty
        | cons c rest =>
          have first := Lexeme.kind_freeText none c rest
          have word : (Lexeme.freeText none c rest).kind.isPad = false := by
            rw [Bool.eq_false_iff, ne_eq, first.2]
            simpa using unpadded c
          exact .prose first.1 word (kind_of_mem_place Lexeme.isFree_of_mem_cut)

lemma openingForm_plainLine {f : Fence} (opens : Fence.at? text = some f) :
    FenceForm f TokenKind.isVerbatim (place m (Lexeme.plainLine text)) := by
  have marker := Fence.take_marker (Fence.isPrefixOf_of_at? opens)
  unfold Lexeme.plainLine
  split
  case h_5 =>
    rw [opens]
    exact .fence rfl marker (kind_of_mem_place Lexeme.isVerbatim_of_mem_cut)
  all_goals simp [Fence.at?, Fence.marker, List.isPrefixOf] at opens

lemma closingForm_fencedLine {f : Fence} (closes : f.marker.isPrefixOf text) :
    FenceForm f TokenKind.isFree (place m (Lexeme.fencedLine f text)) := by
  rw [Lexeme.fencedLine, if_pos closes]
  exact .fence rfl (Fence.take_marker closes) (kind_of_mem_place Lexeme.isFree_of_mem_cut)

lemma innerForm_fencedLine {f : Fence} (stays : ¬ f.marker.isPrefixOf text) :
    InnerForm f (place m (Lexeme.fencedLine f text)) := by
  rw [Lexeme.fencedLine, if_neg stays]
  refine ⟨kind_of_mem_place Lexeme.isVerbatim_of_mem_cut, ?_⟩
  rw [flatMap_text_place, Lexeme.flatMap_text_cut]
  exact mt List.isPrefixOf_iff_prefix.mpr stays

lemma body_place {pads tail : List Lexeme} (padded : ∀ k ∈ Lexeme.kinds pads, k.isPad)
    (unpadded : ∀ k ∈ (Lexeme.kinds tail).head?, k.isPad = false) (ending : Option Token) :
    RawLine.body ⟨place m (pads ++ tail), ending⟩ = place (placeEnd m pads) tail := by
  have front : ∀ t ∈ place m pads, t.kind.isPad := kind_of_mem_place (p := fun k => k.isPad) padded
  rw [RawLine.body, place_append, List.dropWhile_append_of_pos front]
  cases tail with
  | nil => rfl
  | cons l ls => exact List.dropWhile_cons_of_neg (by simp [unpadded l.kind rfl])

end Token

namespace LineForms

lemma cons_of_ofContent (m : Mark) (within : Option Fence) {content : List Char}
    (inline : ∀ c ∈ content, Text.isBreak c = false) (ending : Option Token) {rest : List RawLine}
    (below : LineForms (Fence.behind within (content.dropWhile Text.isPad)) rest) :
    LineForms within (⟨Token.place m (Lexeme.ofContent within content), ending⟩ :: rest) := by
  have unpadded := Lexeme.unpadded_dropWhile content
  have text : ∀ c ∈ content.dropWhile Text.isPad, Text.isBreak c = false :=
    fun c hc => inline c ((List.dropWhile_sublist _).subset hc)
  have pads : ∀ k ∈ Lexeme.kinds ((content.takeWhile Text.isPad).map Lexeme.pad), k.isPad := by
    simpa [Lexeme.kinds, Lexeme.pad] using fun c _ => Lexeme.isPad_padKind c
  cases within with
  | none =>
    have shape : Lexeme.Shape false _ := (Lexeme.plainShape_plainLine unpadded).1
    have body := Token.body_place m pads shape.unpadded ending
    cases opens : Fence.at? (content.dropWhile Text.isPad) with
    | none =>
      rw [Fence.behind, opens] at below
      exact .plain (body ▸ Token.plainForm_plainLine _ unpadded text opens) below
    | some f =>
      rw [Fence.behind, opens] at below
      exact .opening (body ▸ Token.openingForm_plainLine _ opens) below
  | some f =>
    have shape : Lexeme.Shape true _ := (Lexeme.fencedShape_fencedLine f unpadded).1
    have body := Token.body_place m pads shape.unpadded ending
    by_cases closes : f.marker.isPrefixOf (content.dropWhile Text.isPad)
    · rw [Fence.behind, if_pos closes] at below
      exact .closing (body ▸ Token.closingForm_fencedLine _ closes) below
    · rw [Fence.behind, if_neg closes] at below
      exact .inner (body ▸ Token.innerForm_fencedLine _ closes) below

lemma ofTokens_place {ls : List Text.SourceLine} (cut : Text.Cuts ls)
    (inline : ∀ l ∈ ls, ∀ c ∈ l.content, Text.isBreak c = false) (m : Mark)
    (within : Option Fence) :
    LineForms within (RawLine.ofTokens (Token.place m (Lexeme.ofLines within ls))) := by
  induction cut generalizing m within with
  | nil => exact .nil _
  | @last content nonempty =>
    rw [Scanned.ofTokens_place_last m within nonempty]
    exact cons_of_ofContent m within (inline _ List.mem_cons_self) none (.nil _)
  | @cons l rest ending _ ih =>
    obtain ⟨first, others⟩ := List.forall_mem_cons.mp inline
    obtain ⟨eol, n, -, lines⟩ := Scanned.ofTokens_place_cons m within ending rest
    rw [lines]
    exact cons_of_ofContent m within first _ (ih others _ _)

end LineForms

namespace Stream

variable (text : List Char)

lemma lineForms_ofText : LineForms none (RawLine.ofTokens (ofText text).content) := by
  rw [content_ofText]
  exact LineForms.ofTokens_place (Text.cuts_lines _) (Text.inline_of_mem_lines _) _ none

lemma odd_fences_iff :
    (ofText text).content.countP (·.kind = .fence) % 2 = 1 ↔
      ∃ r ∈ (ofText text).reports, r.fault = .openDocString := by
  have parity := isSome_fenceBehind_iff none (ofText text).content
  rw [Option.toList_none, List.length_nil, Nat.zero_add, ← openFence_eq] at parity
  rw [← parity, reports_eq]
  constructor
  · intro opened
    obtain ⟨t, here⟩ := Option.isSome_iff_exists.mp opened
    exact ⟨⟨.openDocString, t.start, t.stop.offset⟩, by simp [openDocString_ofText, here], rfl⟩
  · rintro ⟨r, hr, fault⟩
    rcases List.mem_append.mp hr with hr | hr
    · exact absurd fault (fault_of_mem_quotes hr)
    · obtain ⟨t, here, -⟩ := mem_openDocString.mp (Option.mem_toList.mp hr)
      exact Option.isSome_iff_exists.mpr ⟨t, here⟩

lemma pairwise_reports :
    (ofText text).reports.Pairwise fun r r' => r.start.offset < r'.start.offset := by
  rw [reports_eq]
  refine List.pairwise_append.mpr ⟨?_, ?_, fun r hr r' hr' => ?_⟩
  · exact ScanNote.pairwise_quoteReports _ fun _ h => Lexeme.text_ne_nil_of_mem_ofText h
  · cases (ofText text).openDocString with
    | none => exact .nil
    | some r => exact List.pairwise_singleton _ _
  · obtain ⟨t, opened, rfl⟩ := mem_openDocString.mp (Option.mem_toList.mp hr')
    rw [content_ofText] at opened
    have outside : (none : Option Token).isSome = (none : Option Fence).isSome := rfl
    exact Fence.quoteReports_before (origin text) outside opened r hr

lemma fault_of_mem_dropLast_reports {r : LexicalReport} (h : r ∈ (ofText text).reports.dropLast) :
    r.fault ≠ .openDocString := by
  suffices r ∈ quotes text from fault_of_mem_quotes this
  rw [reports_eq] at h
  cases opened : (ofText text).openDocString with
  | none => simpa [opened] using (List.dropLast_sublist _).subset h
  | some r' => simpa [opened] using h

lemma last_fence_of_report {r : LexicalReport} (h : r ∈ (ofText text).reports)
    (fault : r.fault = .openDocString) :
    ∃ t, ((ofText text).content.filter (·.kind = .fence)).getLast? = some t ∧ r.start = t.start ∧
      r.stop = t.stop.offset := by
  rw [reports_eq] at h
  rcases List.mem_append.mp h with h | h
  · exact absurd fault (fault_of_mem_quotes h)
  · obtain ⟨t, opened, rfl⟩ := mem_openDocString.mp (Option.mem_toList.mp h)
    exact ⟨t, getLast?_of_fenceBehind opened, rfl, rfl⟩

/-- The tokens of a text form its lines, with a doc string between each fence and the next one. The
reports of the scan stand in the order of the text. Only the last can be on a doc string, and it is
there when the number of fences is odd, at the last fence. -/
theorem tokens_form_lines (text : List Char) :
    LineForms none (RawLine.ofTokens (ofText text).content) ∧
      ((ofText text).content.countP (·.kind = .fence) % 2 = 1 ↔
        ∃ r ∈ (ofText text).reports, r.fault = .openDocString) ∧
      (ofText text).reports.Pairwise (fun r r' => r.start.offset < r'.start.offset) ∧
      (∀ r ∈ (ofText text).reports.dropLast, r.fault ≠ .openDocString) ∧
      ∀ r ∈ (ofText text).reports, r.fault = .openDocString →
        ∃ t, ((ofText text).content.filter (·.kind = .fence)).getLast? = some t ∧
          r.start = t.start ∧ r.stop = t.stop.offset :=
  ⟨lineForms_ofText text, odd_fences_iff text, pairwise_reports text,
    fun _ => fault_of_mem_dropLast_reports text, fun _ => last_fence_of_report text⟩

end Stream

end FeatureFile
