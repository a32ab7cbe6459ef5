import FeatureFile.Proofs.Grammar.Grow
import FeatureFile.Proofs.Table.Written
import FeatureFile.Proofs.Tree.Steps

namespace FeatureFile

open Grammar (Spells next)
open Text (IsParted)
open WrittenRow (OnLines)

namespace Item

def openStep? : List Item → Option Line
  | [] => none
  | block _ :: rest => openStep? rest
  | line l :: rest =>
    if l.kind.isStep && (Step.takeBlock rest).2.isEmpty then some l else openStep? rest

lemma exists_of_openStep? {items : List Item} {l : Line} (h : openStep? items = some l) :
    ∃ before, ∃ doc : Option Block, items = before ++ line l :: doc.toList.map block ∧
      l.kind.isStep := by
  fun_induction openStep? items with
  | case1 => cases h
  | case2 b rest ih =>
    obtain ⟨before, doc, rfl, step⟩ := ih h
    exact ⟨block b :: before, doc, rfl, step⟩
  | case3 l' rest here =>
    obtain rfl := Option.some.inj h
    obtain ⟨step, last⟩ := Bool.and_eq_true_iff.mp here
    have whole := Step.map_block_takeBlock rest
    rw [List.isEmpty_iff.mp last, List.append_nil] at whole
    exact ⟨[], (Step.takeBlock rest).1, by rw [whole]; rfl, step⟩
  | case4 l' rest _ ih =>
    obtain ⟨before, doc, rfl, step⟩ := ih h
    exact ⟨line l' :: before, doc, rfl, step⟩

lemma StandsApart.of_alike {L : Likeness} {items items' : List Item} (apart : StandsApart items)
    (h : List.Forall₂ (Alike L) items items') : StandsApart items' := by
  have same : next items = next items' := by
    cases h with
    | nil => rfl
    | cons first _ => exact congrArg some first.symbol
  exact ⟨same ▸ apart.doc, same ▸ apart.row⟩

section

variable {before below : List Item} {l : Line} {doc : Option Block} {rows : List Line}
  (step : l.kind.isStep) (apart : StandsApart below) (bars : ∀ r ∈ rows, r.kind = .pipe)

include step apart bars

lemma spells_rows
    (spelled : Spells IsClean Grammar.feature
      (before ++ line l :: (doc.toList.map block ++ below))) :
    Spells IsClean Grammar.feature
      (before ++ line l :: (doc.toList.map block ++ (rows.map line ++ below))) := by
  have one : (doc.toList.map block).map symbol ∈ [[], [.doc]] := by
    cases doc <;> simp [symbol]
  apply Grammar.spells_feature_rows spelled (Grammar.Symbol.ofKind_of_isStep step) one apart.doc
    apart.row
  refine List.forall_mem_map.mpr fun r hr => ⟨(Grammar.Symbol.ofKind_eq_iff rfl).mpr (bars r hr), ?_⟩
  intro sign
  cases (bars r hr).symm.trans sign

lemma rows_mem_steps :
    (⟨l, doc, rows⟩ : Step) ∈
      steps (before ++ line l :: (doc.toList.map block ++ (rows.map line ++ below))) := by
  have symbols : ∀ r ∈ rows, Grammar.Symbol.ofKind r.kind = .row :=
    fun r hr => (Grammar.Symbol.ofKind_eq_iff rfl).mpr (bars r hr)
  have taken : Step.take l (doc.toList.map block ++ (rows.map line ++ below)) =
      (⟨l, doc, rows⟩, below) := by
    rw [← List.append_assoc]
    exact Step.take_append (s := ⟨l, doc, rows⟩) symbols apart.doc apart.row
  have mem := take_mem_steps step before (doc.toList.map block ++ (rows.map line ++ below))
  rwa [taken] at mem

end

end Item

/-- A text falls into two right below a step that has no table. -/
structure IsBelowStep (front rest : List Char) (l : Line) : Prop where
  parted : IsParted front rest
  closed : ∀ r ∈ (Stream.ofText front).reports, r.fault ≠ .openDocString
  step : Item.openStep? (Stream.ofText front).items = some l
  apart : Item.StandsApart (Stream.itemsAt ⟨0, .start⟩ rest)

namespace IsBelowStep

variable {front rest : List Char} {l : Line}

lemma ne_nil (below : IsBelowStep front rest l) : front ≠ [] := by
  rintro rfl
  cases below.step

lemma parted_row (below : IsBelowStep front rest l) (row : WrittenRow) (more : List Char) :
    IsParted front (row.text ++ more) := by
  refine ⟨below.parted.ended, fun _ => ?_⟩
  rw [WrittenRow.text, List.append_assoc]
  exact Text.head?_append_ne_feed row.isLine.inline row.isLine.ne_nil _

end IsBelowStep

namespace Parsed

variable {l : Line}

def HasTable (p : Parsed) (l : Line) (head : List (List Char)) (rows : List (List (List Char))) :
    Prop :=
  ∃ v : View .step, v.tree ∈ p.steps ∧ v.stepToken? = some l.head ∧
    ∃ t ∈ v.table?, t.head?.map View.values = some head ∧ t.rows.map View.values = rows

lemma hasTable_of_mem {p : Parsed} {doc : Option Block} {rows : List Line}
    {head : List (List Char)} {others : List (List (List Char))} (step : l.kind.isStep)
    (mem : (⟨l, doc, rows⟩ : Step).tree ∈ p.steps)
    (values : rows.map (·.rowView.values) = head :: others) : p.HasTable l head others := by
  obtain ⟨l', ls, rfl, first, below⟩ := List.map_eq_cons_iff.mp values
  refine ⟨Step.view ⟨l, doc, l' :: ls⟩, mem, Step.stepToken?_view step, Line.tableView l' ls,
    Step.table?_view_of_cons rfl, ?_, ?_⟩
  · rw [Line.head?_tableView, Option.map_some, first]
  · rw [Line.rows_tableView, List.map_map]
    exact below

/-- Rows below a step are read without any diagnostic, and with the values that were written. -/
theorem table_read_back {front rest : List Char} {first : WrittenRow} {others : List WrittenRow}
    (below : IsBelowStep front rest l) (clean : (parse ⟨false⟩ (front ++ rest)).diagnostics = [])
    (lines : OnLines rest (first :: others)) :
    let p := parse ⟨false⟩ (front ++ ((first :: others).flatMap WrittenRow.text ++ rest))
    p.diagnostics = [] ∧ p.HasTable l first.values (others.map WrittenRow.values) := by
  intro p
  obtain ⟨before, doc, items, step⟩ := Item.exists_of_openStep? below.step
  have unfenced := Stream.openFence_eq_none below.closed
  have parted : IsParted front ((first :: others).flatMap WrittenRow.text ++ rest) := by
    rw [List.flatMap_cons, List.append_assoc]
    exact below.parted_row first _
  obtain ⟨ls, n, rows, bars, values⟩ := WrittenRow.itemsAt_rows lines (Stream.ofText front).stop
  have apart : Item.StandsApart (Stream.itemsAt n rest) :=
    below.apart.of_alike (Stream.alike_itemsAt _ n rest)
  have whole : (Stream.ofText front).items ++ Stream.itemsAt (Stream.ofText front).stop
        ((first :: others).flatMap WrittenRow.text ++ rest) =
      before ++ .line l :: (doc.toList.map .block ++ (ls.map .line ++ Stream.itemsAt n rest)) := by
    rw [items, rows, List.append_assoc, List.cons_append]
  obtain ⟨spelled, quiet, quiet'⟩ :=
    (diagnostics_append_eq_nil_iff below.ne_nil below.parted unfenced).mp clean
  -- The rest is read from a place further down, and spells the same there.
  have moved := spelled.append_alike (Stream.alike_itemsAt _ n rest)
  rw [items, List.append_assoc, List.cons_append] at moved
  have silent : p.diagnostics = [] := by
    apply (diagnostics_append_eq_nil_iff below.ne_nil parted unfenced).mpr
    rw [whole]
    exact ⟨Item.spells_rows step apart bars moved, quiet, WrittenRow.isClosed_rows lines quiet'⟩
  have mem : (⟨l, doc, ls⟩ : Step).tree ∈ p.steps := by
    rw [steps_of_clean (diagnostics_eq_nil_iff.mp silent).1,
      Stream.items_append_behind below.ne_nil parted unfenced, whole]
    exact List.mem_map_of_mem (Item.rows_mem_steps step apart bars)
  exact ⟨silent, hasTable_of_mem step mem values⟩

theorem table_read_back_escapes :
    let front := "Feature: f\nScenario: s\nGiven g\n ```|\n|\n```\n".toList
    let rest := "# c\nThen t".toList
    let bars : WrittenCell :=
      ⟨"\t".toList, "a|\\\nb".toList, [], by decide +kernel, by decide +kernel, by decide +kernel⟩
    let word : WrittenCell :=
      ⟨[], "\\n".toList, " ".toList, by decide +kernel, by decide +kernel, by decide +kernel⟩
    let empty : WrittenCell := ⟨" ".toList, [], [], by decide +kernel, by decide +kernel, by decide⟩
    let first : WrittenRow := ⟨" ".toList, [bars, word], "\t".toList, "\r\n".toList, by decide +kernel⟩
    let none : WrittenRow := ⟨[], [], " ".toList, "\n".toList, by decide +kernel⟩
    let last : WrittenRow := ⟨[], [empty], [], "\r".toList, by decide⟩
    let p := parse ⟨false⟩ (front ++ ([first, none, last].flatMap WrittenRow.text ++ rest))
    ∃ l, IsBelowStep front rest l ∧ (parse ⟨false⟩ (front ++ rest)).diagnostics = [] ∧
      OnLines rest [first, none, last] ∧ p.diagnostics = [] ∧
      p.HasTable l ["a|\\\nb".toList, "\\n".toList] [[], [[]]] := by
  intro front rest bars word empty first none last p
  have step : (Item.openStep? (Stream.ofText front).items).isSome := by decide +kernel
  obtain ⟨l, found⟩ := Option.isSome_iff_exists.mp step
  have below : IsBelowStep front rest l :=
    ⟨by decide +kernel, by decide +kernel, found, ⟨by decide +kernel, by decide +kernel⟩⟩
  have clean : (parse ⟨false⟩ (front ++ rest)).diagnostics = [] := by decide +kernel
  have lines : OnLines rest [first, none, last] := ⟨by decide +kernel, by decide +kernel,
    by decide +kernel, trivial⟩
  exact ⟨l, below, clean, lines, table_read_back below clean lines⟩

end Parsed

end FeatureFile
