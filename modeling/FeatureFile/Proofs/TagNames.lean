import FeatureFile.Proofs.Document.Placed
import FeatureFile.Proofs.Recovery
import FeatureFile.Proofs.Tree.LineParts
import FeatureFile.View.Header

namespace FeatureFile

open FeatureFile.Tree (nodesOf)
open Lexeme (cut isTagChar padKind runLength tagLine)
open Text (byteLength isBlank isBreak isPad)
open Token (place)

def Lexeme.tagName? : List Char → Option (List Char)
  | [] => none
  | c :: rest =>
    if isPad c || c = '@' then none
    else if isTagChar c then some (c :: rest.takeWhile isTagChar)
    else some (c :: rest.take (runLength c rest))

namespace Lexeme

variable {signed : Bool} {c : Char} {rest : List Char}

lemma padKind_ne_text (c : Char) : padKind c ≠ .text := by
  rw [padKind]
  split <;> decide

lemma tagLine_pad (pad : isPad c) : tagLine signed c rest = ⟨padKind c, 0, false, none⟩ :=
  if_pos pad

lemma tagLine_name (pad : isPad c = false) (sign : c ≠ '@') (name : isTagChar c) :
    tagLine true c rest = ⟨.text, (rest.takeWhile isTagChar).length, false, none⟩ := by
  simp [tagLine, pad, sign, name]

lemma tagLine_blank (pad : isPad c = false) (sign : c ≠ '@') (blank : isTagChar c = false) :
    tagLine true c rest = ⟨.text, runLength c rest, false, none⟩ := by
  have plain : c ≠ '#' := by
    rintro rfl
    cases blank
  simp [tagLine, pad, sign, blank, plain]

lemma tagLine_of_kind (kind : (tagLine signed c rest).kind = .atSign) :
    c = '@' ∧ tagLine signed c rest = ⟨.atSign, 0, true, none⟩ := by
  unfold tagLine at kind ⊢
  split at kind
  case isTrue =>
    rw [padKind] at kind
    split at kind <;> cases kind
  case isFalse pad =>
    split at kind
    case isTrue sign => exact ⟨sign, by rw [if_neg pad, if_pos sign]⟩
    case isFalse =>
      split at kind
      · cases kind
      · split at kind <;> cases kind

end Lexeme

namespace TagPart

lemma head_or_mem_of_mem_ofTokens {signed : Bool} {t sign : Token} {ts : List Token}
    {name : Option Token} (h : tag sign name ∈ ofTokens signed (t :: ts)) :
    (t.kind = .atSign ∧ sign = t ∧ name = name? ts) ∨
      ∃ signed', tag sign name ∈ ofTokens signed' ts := by
  rw [ofTokens] at h
  split at h
  case isTrue here =>
    rcases List.mem_cons.mp h with same | h
    · obtain ⟨rfl, rfl⟩ := TagPart.tag.inj same
      exact .inl ⟨here, rfl, rfl⟩
    · exact .inr ⟨_, h⟩
  case isFalse =>
    split at h
    case isTrue => exact .inr ⟨_, h⟩
    case isFalse =>
      rcases List.mem_cons.mp h with same | h
      · cases same
      · exact .inr ⟨_, h⟩

lemma kind_of_name? {ts : List Token} {t : Token} (h : name? ts = some t) : t.kind = .text := by
  simpa using (Option.filter_eq_some_iff.mp h).2

lemma map_text_name? (m : Mark) (rest : List Char) :
    (name? (place m (cut tagLine true 0 rest))).map (·.text) = Lexeme.tagName? rest := by
  cases rest with
  | nil => rfl
  | cons c rest =>
    rw [cut, place, name?, List.head?_cons, Option.filter, Lexeme.tagName?]
    cases pad : isPad c with
    | true => simp [Lexeme.tagLine_pad pad, Lexeme.padKind_ne_text]
    | false =>
      by_cases sign : c = '@'
      · subst sign
        rfl
      · cases name : isTagChar c with
        | true =>
          have run := List.prefix_iff_eq_take.mp (List.takeWhile_prefix isTagChar (l := rest))
          simp [Lexeme.tagLine_name pad sign name, sign, ← run]
        | false => simp [Lexeme.tagLine_blank pad sign name, sign]

lemma exists_of_mem_ofTokens {signed signed' : Bool} {m : Mark} {text : List Char} {sign : Token}
    {name : Option Token} (h : tag sign name ∈ ofTokens signed (place m (cut tagLine signed' 0 text))) :
    ∃ front rest, text = front ++ rest ∧ sign.stop.offset = m.offset + byteLength front ∧
      sign.kind = .atSign ∧ name.map (·.text) = Lexeme.tagName? rest ∧ ∀ t ∈ name, t.kind = .text := by
  match text with
  | [] => cases h
  | c :: below =>
    rw [cut, place, Lexeme.cut_eq_cut_drop] at h
    rcases head_or_mem_of_mem_ofTokens h with ⟨kind, rfl, rfl⟩ | ⟨other, h⟩
    · obtain ⟨rfl, here⟩ := Lexeme.tagLine_of_kind kind
      refine ⟨['@'], below, rfl, ?_, kind, ?_, fun t => kind_of_name?⟩
      · rw [here]
        rfl
      · rw [here, List.drop_zero, map_text_name?]
    · obtain ⟨front, rest, whole, stop, here⟩ := exists_of_mem_ofTokens h
      refine ⟨c :: below.take (tagLine signed' c below).more ++ front, rest, ?_, ?_, here⟩
      · rw [List.cons_append, List.cons_append, List.append_assoc, ← whole, List.take_append_drop]
      · rw [stop, Mark.offset_advance, Lexeme.text_ofCut, Text.byteLength_append, Nat.add_assoc]
termination_by text.length

section Tree

variable {sign : Token} {name : Option Token}

lemma ownTokens_tree : (tag sign name).tree.ownTokens = sign :: name.toList := by
  cases name <;> rfl

lemma recovered_tree : (tag sign name).tree.recovered = name.isNone := by
  cases name <;> rfl

lemma filter_ownTokens_tree (kind : sign.kind = .atSign) (word : ∀ t ∈ name, t.kind = .text) :
    (tag sign name).tree.ownTokens.filter (·.kind = .atSign) = [sign] := by
  rw [ownTokens_tree, List.filter_cons_of_pos (by simpa using kind)]
  cases name with
  | none => rfl
  | some t => simp [word t rfl]

lemma find?_ownTokens_tree (kind : sign.kind = .atSign) (word : ∀ t ∈ name, t.kind = .text) :
    (tag sign name).tree.ownTokens.find? (·.kind = .text) = name := by
  rw [ownTokens_tree, List.find?_cons_of_neg (by simp [kind])]
  cases name with
  | none => rfl
  | some t => simp [word t rfl]

end Tree

end TagPart

namespace Text

lemma isBlank_of_isPad {c : Char} (pad : isPad c) : isBlank c := by
  rcases isPad_iff.mp pad with rfl | rfl <;> rfl

lemma isBlank_of_isBreak {c : Char} (stop : isBreak c) : isBlank c := by
  rcases Bool.or_eq_true_iff.mp stop with same | same <;> (rw [of_decide_eq_true same]; rfl)

end Text

namespace Lexeme

lemma isTagChar_eq_false {c : Char} : isTagChar c = false ↔ isBlank c ∨ c = '@' := by
  cases blank : isBlank c <;> simp [isTagChar, blank]

lemma takeWhile_isTagChar (text : List Char) :
    (text.takeWhile (!isBreak ·)).takeWhile isTagChar = text.takeWhile isTagChar := by
  rw [List.takeWhile_takeWhile]
  refine congrArg (List.takeWhile · text) (funext fun c => ?_)
  cases stop : isBreak c with
  | false => simp
  | true => simp [isTagChar_eq_false.mpr (.inl (Text.isBlank_of_isBreak stop))]

lemma tagName?_of_tame {behind : List Char}
    (tame : ∀ c ∈ behind.head?, isBlank c → isPad c ∨ isBreak c) :
    tagName? (behind.takeWhile (!isBreak ·)) =
      if behind.takeWhile isTagChar = [] then none else some (behind.takeWhile isTagChar) := by
  cases behind with
  | nil => rfl
  | cons c rest =>
    cases name : isTagChar c with
    | true =>
      have plain : ¬ (isBlank c ∨ c = '@') := by simp [← isTagChar_eq_false, name]
      have inline : isBreak c = false :=
        Bool.eq_false_iff.mpr fun stop => plain (.inl (Text.isBlank_of_isBreak stop))
      have pad : isPad c = false := Bool.eq_false_iff.mpr fun pad => plain (.inl (Text.isBlank_of_isPad pad))
      have sign : c ≠ '@' := fun sign => plain (.inr sign)
      simp [tagName?, inline, pad, sign, name, takeWhile_isTagChar]
    | false =>
      have none : (c :: rest).takeWhile isTagChar = [] := List.takeWhile_cons_of_neg (by simp [name])
      rw [none, if_pos rfl]
      cases stop : isBreak c with
      | true => simp [stop, tagName?]
      | false =>
        have first : isPad c ∨ c = '@' :=
          (isTagChar_eq_false.mp name).imp_left fun blank => (tame c rfl blank).resolve_right (by simp [stop])
        simp [stop, tagName?, first]

lemma tagName?_of_wild {behind : List Char} {c : Char} (first : behind.head? = some c)
    (blank : isBlank c) (wild : ¬ (isPad c ∨ isBreak c)) :
    tagName? (behind.takeWhile (!isBreak ·)) ≠ none := by
  obtain ⟨rest, rfl⟩ := List.head?_eq_some_iff.mp first
  have sign : c ≠ '@' := by
    rintro rfl
    cases blank
  obtain ⟨pad, stop⟩ := not_or.mp wild
  have name : isTagChar c = false := isTagChar_eq_false.mpr (.inl blank)
  simp [tagName?, stop, pad, sign, name]

end Lexeme

namespace View

structure IsSigned (w : View .tag) (text : List Char) (sign : Token) (behind : List Char) : Prop where
  own : w.tree.ownTokens.filter (·.kind = .atSign) = [sign]
  behind : Text.dropBytes? sign.stop.offset text = some behind

lemma IsSigned.unique {w : View .tag} {text : List Char} {sign sign' : Token} {behind behind' : List Char}
    (h : w.IsSigned text sign behind) (h' : w.IsSigned text sign' behind') :
    sign = sign' ∧ behind = behind' := by
  obtain rfl : sign = sign' := (List.cons.inj (h.own.symm.trans h'.own)).1
  exact ⟨rfl, Option.some.inj (h.behind.symm.trans h'.behind)⟩

end View

namespace Parsed

/-- Each name is the whole run of characters behind its sign that are no blanks and no signs, and a
sign with no such run behind it is a fault. -/
structure NamesTags (p : Parsed) (text : List Char) : Prop where
  names : ∀ v : View .tags, v.tree ∈ p.root.descendants → ∀ w ∈ v.tagList, ∀ name ∈ w.tagName?,
    ∃ sign behind, w.IsSigned text sign behind ∧ name = behind.takeWhile isTagChar ∧ name ≠ []
  empty : ∀ w : View .tag, w.tree ∈ p.root.descendants → ∀ sign behind, w.IsSigned text sign behind →
    (∀ c ∈ behind.head?, isBlank c ∨ c = '@') →
    w.tree.recovered ∧ .atToken .emptyTag sign ∈ p.diagnostics

variable {options : Options} {text : List Char}

lemma exists_isSigned {w : View .tag} (mem : w.tree ∈ (parse options text).root.descendants) :
    ∃ sign behind, w.IsSigned text sign behind ∧
      w.tagName? = Lexeme.tagName? (behind.takeWhile (!isBreak ·)) ∧
      (w.tree.recovered ↔ w.tagName? = none) := by
  have part : w.tree.rule?.any Rule.isLinePart := w.any_rule?_tree rfl
  obtain ⟨tree, isTag⟩ := w
  rw [Tree.descendants_eq_nodesOf] at mem
  obtain ⟨l, item, ⟨-, rfl⟩ | ⟨kind, tag, hp, rfl⟩⟩ := Feature.exists_line isFormed mem part
  · cases isTag
  cases tag with
  | stray t => cases isTag
  | tag sign name =>
    obtain ⟨content, placed⟩ := exists_isPlaced item (by rw [kind]; rfl)
    obtain ⟨rest, rfl⟩ := placed.sign kind
    rw [Line.tagParts, placed.tokens] at hp
    obtain ⟨front, below, whole, stop, sign', value, word⟩ := TagPart.exists_of_mem_ofTokens hp
    obtain ⟨before, back, rfl, start, breaks⟩ := placed.lies
    have inline : ∀ c ∈ below, (!isBreak c) := by
      intro c hc
      simpa using placed.inline c (whole ▸ List.mem_append_right _ hc)
    have line : (below ++ back).takeWhile (!isBreak ·) = below :=
      Text.takeWhile_append_of_stop inline (by simpa using breaks)
    refine ⟨sign, below ++ back, ⟨?_, ?_⟩, ?_, ?_⟩
    · exact TagPart.filter_ownTokens_tree sign' word
    · rw [whole, List.append_assoc, ← List.append_assoc before, stop, start, ← Text.byteLength_append]
      exact Text.dropBytes?_append _ _
    · rw [View.tagName?, TagPart.find?_ownTokens_tree sign' word, value, line]
    · rw [View.tagName?, TagPart.find?_ownTokens_tree sign' word, TagPart.recovered_tree,
        Option.isNone_iff_eq_none, Option.map_eq_none_iff]

lemma emptyTag_mem_diagnostics {w : View .tag} {sign : Token} {behind : List Char}
    (mem : w.tree ∈ (parse options text).root.descendants) (signed : w.IsSigned text sign behind)
    (recovered : w.tree.recovered) : .atToken .emptyTag sign ∈ (parse options text).diagnostics := by
  rw [Tree.descendants_eq_nodesOf] at mem
  have found : w.tree.sign? = some sign := by
    rw [Tree.sign?, ← List.head?_filter, signed.own]
    rfl
  have fault : w.tree.faultsAt .emptyTag = [some sign] := by
    rw [Tree.faultsAt, if_pos (by simp [w.ofRule, recovered]), found]
  have site : some sign ∈ (nodesOf (parse options text).root.children).flatMap (Tree.faultsAt .emptyTag) :=
    List.mem_flatMap.mpr ⟨w.tree, mem, by simp [fault]⟩
  have here := List.mem_map_of_mem (f := Option.map (Diagnostic.atToken .emptyTag)) site
  obtain ⟨d, told, same⟩ := List.mem_map.mp ((sites_children.own .emptyTag rfl).mem_iff.mpr here)
  obtain rfl := Option.some.inj same
  exact (List.mem_filter.mp ((told_perm (f := .emptyTag) rfl).mem_iff.mpr told)).1

/-- Each tag has one sign. What it takes for its name can be read off the line behind that, and where
it finds none it is flagged and told of. The names are those of the text unless a blank that is no
padding stands right behind a sign. -/
theorem tags_named (options : Options) (text : List Char) :
    let p := parse options text
    (∀ w : View .tag, w.tree ∈ p.root.descendants → ∃ sign behind, w.IsSigned text sign behind ∧
        w.tagName? = Lexeme.tagName? (behind.takeWhile (!isBreak ·)) ∧
        (w.tree.recovered ↔ w.tagName? = none) ∧
        (w.tree.recovered → .atToken .emptyTag sign ∈ p.diagnostics)) ∧
      (p.NamesTags text ↔ ∀ w : View .tag, w.tree ∈ p.root.descendants →
        ∀ sign behind, w.IsSigned text sign behind →
          ∀ c ∈ behind.head?, isBlank c → isPad c ∨ isBreak c) := by
  intro p
  refine ⟨fun w mem => ?_, fun names w mem sign behind signed c first blank => ?_, fun tame => ⟨?_, ?_⟩⟩
  · obtain ⟨sign, behind, signed, name, flag⟩ := exists_isSigned mem
    exact ⟨sign, behind, signed, name, flag, emptyTag_mem_diagnostics mem signed⟩
  · by_contra wild
    obtain ⟨sign', behind', signed', name, flag⟩ := exists_isSigned mem
    obtain ⟨rfl, rfl⟩ := signed.unique signed'
    -- By the rule there is no name here, but the scan goes on to read one.
    have empty : ∀ d ∈ behind.head?, isBlank d ∨ d = '@' := by
      intro d hd
      obtain rfl := Option.mem_unique first hd
      exact .inl blank
    have none := flag.mp (names.empty w mem sign behind signed empty).1
    exact Lexeme.tagName?_of_wild first blank wild (name.symm.trans none)
  · intro v mem w hw name here
    have below : w.tree ∈ p.root.descendants := by
      rw [Tree.descendants_eq_nodesOf] at mem ⊢
      exact Tree.mem_nodesOf_of_mem_children mem (View.tree_mem hw)
        (by rw [Tree.isNode, w.rule?_tree]; rfl)
    obtain ⟨sign, behind, signed, read, -⟩ := exists_isSigned below
    rw [Lexeme.tagName?_of_tame (tame w below sign behind signed), Option.mem_def.mp here] at read
    split at read
    case isTrue => cases read
    case isFalse some =>
      obtain rfl := Option.some.inj read
      exact ⟨sign, behind, signed, rfl, some⟩
  · intro w mem sign behind signed head
    obtain ⟨sign', behind', signed', read, flag⟩ := exists_isSigned mem
    obtain ⟨rfl, rfl⟩ := signed.unique signed'
    have none : behind.takeWhile isTagChar = [] := by
      cases behind with
      | nil => rfl
      | cons c rest =>
        exact List.takeWhile_cons_of_neg (by simp [Lexeme.isTagChar_eq_false.mpr (head c rfl)])
    rw [Lexeme.tagName?_of_tame (tame w mem sign behind signed), if_pos none] at read
    have recovered := flag.mpr read
    exact ⟨recovered, emptyTag_mem_diagnostics mem signed recovered⟩

/-- A no-break space behind a sign: it begins a name, and nothing is told of. -/
theorem tags_named_noBreakSpace :
    let text := "@\u00a0x\nFeature: f\n".toList
    let p := parse ⟨true⟩ text
    (∃ w : View .tag, w.tree ∈ p.root.descendants ∧ w.tagName? = some "\u00a0x".toList) ∧
      (p.diagnostics.all fun d => d.fault ≠ .emptyTag) ∧ ¬ p.NamesTags text := by
  intro text p
  have found : ((p.root.descendants.filterMap (View.cast? .tag)).head?.map fun w =>
      (w.tagName?, w.tree.ownTokens.filter (·.kind = .atSign))) =
        some (some "\u00a0x".toList, [⟨.atSign, ['@'], ⟨0, .start⟩⟩]) := by decide +kernel
  have quiet : (p.diagnostics.all fun d => d.fault ≠ .emptyTag) := by decide +kernel
  obtain ⟨w, first, values⟩ := Option.map_eq_some_iff.mp found
  obtain ⟨name, own⟩ := Prod.mk.inj values
  have mem := View.tree_mem (List.mem_of_mem_head? first)
  refine ⟨⟨w, mem, name⟩, quiet, fun names => ?_⟩
  have blank : ∀ c ∈ "\u00a0x\nFeature: f\n".toList.head?, isBlank c ∨ c = '@' := by
    intro c hc
    obtain rfl : '\u00a0' = c := Option.some.inj hc
    exact .inl (by decide +kernel)
  obtain ⟨-, told⟩ := names.empty w mem _ _ ⟨own, by decide +kernel⟩ blank
  have silent := List.all_eq_true.mp quiet _ told
  cases silent

end Parsed

end FeatureFile
