import FeatureFile.Proofs.Alike.Trees
import FeatureFile.Proofs.Diagnostics
import FeatureFile.Proofs.Grammar.Accepts
import FeatureFile.Proofs.Locality
import FeatureFile.Proofs.Token.Reports

namespace FeatureFile

open Grammar (Spells)
open Text (IsParted)

def Lexeme.IsClosed (l : Lexeme) : Prop :=
  l.kind = .fence ∨ l.openQuote = none

lemma ScanNote.quoteReports_eq_nil_iff (m : Mark) (ls : List Lexeme) :
    quoteReports m ls = [] ↔ ∀ l ∈ ls, l.IsClosed := by
  induction ls generalizing m with
  | nil => simp [quoteReports]
  | cons l ls ih =>
    have here : (quoteReport? m l).toList = [] ↔ l.IsClosed := by
      rw [Option.toList_eq_nil_iff, quoteReport?, Lexeme.IsClosed]
      split
      · simp [*]
      · simp [*]
    rw [quoteReports, List.append_eq_nil_iff, here, ih, List.forall_mem_cons]

namespace Item

variable {L : Likeness} {i j : Item}

lemma Alike.symbol (h : i.Alike L j) : i.symbol = j.symbol := by
  cases h with
  | line line => exact congrArg Grammar.Symbol.ofKind line.kind
  | block _ => rfl

lemma Alike.isClean (h : i.Alike L j) (clean : i.IsClean) : j.IsClean := by
  cases h with
  | @line l m line =>
    intro sign
    have faults : l.hasFaultyTags = m.hasFaultyTags := by
      refine line.tagParts.any_eq fun p q same => ?_
      cases same with
      | stray _ => rfl
      | tag _ name => cases name <;> rfl
    rw [← faults]
    exact clean (line.kind.trans sign)
  | block block => exact block.closing.isSome_eq.symm.trans clean

variable {items items' : List Item} (h : List.Forall₂ (Alike L) items items')

include h

lemma map_symbol_of_alike : items.map symbol = items'.map symbol := by
  induction h with
  | nil => rfl
  | cons first _ ih => rw [List.map_cons, List.map_cons, first.symbol, ih]

lemma isClean_of_alike (clean : ∀ i ∈ items, i.IsClean) : ∀ j ∈ items', j.IsClean := by
  induction h with
  | nil => exact clean
  | cons first _ ih =>
    obtain ⟨here, below⟩ := List.forall_mem_cons.mp clean
    exact List.forall_mem_cons.mpr ⟨first.isClean here, ih below⟩

end Item

lemma Grammar.Spells.append_alike {L : Likeness} {r : RegularExpression Symbol}
    {front items items' : List Item} (spelled : Spells Item.IsClean r (front ++ items))
    (h : List.Forall₂ (Item.Alike L) items items') : Spells Item.IsClean r (front ++ items') := by
  obtain ⟨here, below⟩ := List.forall_mem_append.mp spelled.good
  refine ⟨?_, List.forall_mem_append.mpr ⟨here, Item.isClean_of_alike h below⟩⟩
  rw [List.map_append, ← Item.map_symbol_of_alike h, ← List.map_append]
  exact spelled.word

def Likeness.anywhere : Likeness where
  token t u := t.kind = u.kind ∧ t.text = u.text
  mark _ _ := True
  kind h := h.1
  start _ := trivial
  stop _ := trivial

lemma Token.alike_place (m n : Mark) (ls : List Lexeme) :
    List.Forall₂ Likeness.anywhere.token (place m ls) (place n ls) := by
  induction ls generalizing m n with
  | nil => exact .nil
  | cons l ls ih => exact .cons ⟨rfl, rfl⟩ (ih _ _)

namespace Stream

variable {front rest : List Char}

def itemsAt (m : Mark) (text : List Char) : List Item :=
  Item.ofLines none (RawLine.ofTokens (Token.place m (Lexeme.ofText text)))

lemma items_ofText (text : List Char) :
    (ofText text).items = itemsAt (origin text) (Text.stripMark text) := by
  rw [items, content_ofText, itemsAt]

lemma alike_itemsAt (m n : Mark) (text : List Char) :
    List.Forall₂ (Item.Alike Likeness.anywhere) (itemsAt m text) (itemsAt n text) :=
  Item.alike_ofLines .none (RawLine.alike_ofTokens (Token.alike_place m n _))

lemma openFence_eq_none_of_items {text : List Char}
    (closed : ∀ b, .block b ∈ (ofText text).items → b.closing ≠ none) :
    openFence (ofText text).content = none := by
  rw [← Option.not_isSome_iff_eq_none]
  intro some
  obtain ⟨t, opened⟩ := Option.isSome_iff_exists.mp some
  obtain ⟨b, hb, stays, -⟩ := openFence_eq_some_iff.mp opened
  exact closed b hb stays

lemma items_append_behind (some : front ≠ []) (parted : IsParted front rest)
    (closed : openFence (ofText front).content = none) :
    (ofText (front ++ rest)).items = (ofText front).items ++ itemsAt (ofText front).stop rest := by
  rw [items, (ofText_behind some parted closed).1, ofTokens_append parted.ended,
    Item.ofLines_append none (closing_ne_none closed), items, itemsAt]

end Stream

namespace Parsed

variable {options : Options} {text front rest : List Char}

lemma hasError_iff_items :
    (parse options text).hasError = false ↔
      Spells Item.IsClean Grammar.feature (Stream.ofText text).items :=
  Feature.hasError_ofLines _ fun i hi =>
    (Item.isScanned_ofLines none (scanned_ofText text) (by simp) i hi).proper

lemma diagnostics_eq_nil_iff :
    (parse ⟨false⟩ text).diagnostics = [] ↔
      (parse ⟨false⟩ text).hasError = false ∧
        ∀ l ∈ Lexeme.ofText (Text.stripMark text), l.IsClosed := by
  have quotes : (Stream.ofText text).notes.filterMap ScanNote.report? = [] ↔
      ∀ l ∈ Lexeme.ofText (Text.stripMark text), l.IsClosed := by
    rw [Stream.filterMap_report?_notes, Stream.quotes, ScanNote.quoteReports_eq_nil_iff]
  rw [← quotes]
  constructor
  · intro none
    refine ⟨Bool.eq_false_iff.mpr fun error => ?_, List.eq_nil_iff_forall_not_mem.mpr fun r hr => ?_⟩
    · obtain ⟨d, hd, -⟩ := hasError_iff_diagnostics.mp error
      rw [none] at hd
      cases hd
    · have report : Diagnostic.ofReport r ∈ (parse ⟨false⟩ text).diagnostics :=
        mem_diagnostics.mpr (.inl ⟨r, List.mem_append_left _ hr, rfl⟩)
      rw [none] at report
      cases report
  · rintro ⟨clean, quiet⟩
    refine List.eq_nil_iff_forall_not_mem.mpr fun d hd => ?_
    have sound (error : d.isError) : d.fault = .lexical .openString := by
      by_contra other
      exact Bool.eq_false_iff.mp clean (hasError_iff_diagnostics.mpr ⟨d, hd, error, other⟩)
    rcases mem_diagnostics.mp hd with ⟨r, hr, rfl⟩ | remark
    · have string : r.fault = .openString := Fault.lexical.inj (sound rfl)
      rcases List.mem_append.mp hr with hr | hr
      · rw [quiet] at hr
        cases hr
      · obtain ⟨t, -, rfl⟩ := Stream.mem_openDocString.mp (Option.mem_toList.mp hr)
        cases string
    · have even : d.fault.isUneven = false := by
        have kept := remark
        rw [remarks_eq_filter] at kept
        simpa [Options.keeps, Remark.isUneven] using (List.mem_filter.mp kept).2
      have error : d.isError := by
        rw [Remark.isError_of_isStructural (isStructural_of_mem_remarks _ remark), even]
        rfl
      exact fault_ne_lexical remark _ (sound error)

lemma diagnostics_append_eq_nil_iff (some : front ≠ []) (parted : IsParted front rest)
    (closed : openFence (Stream.ofText front).content = none) :
    (parse ⟨false⟩ (front ++ rest)).diagnostics = [] ↔
      Spells Item.IsClean Grammar.feature
          ((Stream.ofText front).items ++ Stream.itemsAt (Stream.ofText front).stop rest) ∧
        (∀ l ∈ Lexeme.ofText (Text.stripMark front), l.IsClosed) ∧
        ∀ l ∈ Lexeme.ofText rest, l.IsClosed := by
  rw [diagnostics_eq_nil_iff, hasError_iff_items, Stream.items_append_behind some parted closed,
    Stream.lexemes_append some parted closed, List.forall_mem_append]

end Parsed

end FeatureFile
