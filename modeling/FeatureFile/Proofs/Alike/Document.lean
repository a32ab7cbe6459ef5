import FeatureFile.Proofs.Alike.Sections

/-!
Documents of texts that read alike. Lists of lines from which the same is read need not match line
by line: a blank line more makes no difference outside of doc strings.
-/

namespace FeatureFile

variable {L : Likeness} {ls ms : List RawLine} {eof eof' : Token}

namespace Opening

structure ReadAlike (L : Likeness) (ls ms : List RawLine) : Prop where
  kind : kindBehindTags ls = kindBehindTags ms
  first : Option.Rel (Line.Alike L) (ls.findSome? RawLine.significant?)
    (ms.findSome? RawLine.significant?)
  junk : List.Forall₂ (Line.Alike L) (skipJunk ls).1 (skipJunk ms).1
  below : List.Forall₂ (Item.Alike L) (Item.ofLines none (skipJunk ls).2)
    (Item.ofLines none (skipJunk ms).2)
  items : List.Forall₂ (Item.Alike L) (Item.ofLines none ls) (Item.ofLines none ms)

lemma ReadAlike.blank {m : RawLine} (h : ReadAlike L ls ms) (blank : m.significant? = none) :
    ReadAlike L ls (m :: ms) where
  kind := by rw [kindBehindTags, blank]; exact h.kind
  first := by rw [List.findSome?_cons, blank]; exact h.first
  junk := by rw [skipJunk, blank]; exact h.junk
  below := by rw [skipJunk, blank]; exact h.below
  items := by rw [Item.ofLines_cons_blank ms blank]; exact h.items

lemma ReadAlike.cons {l m : RawLine} (h : ReadAlike L ls ms)
    (line : Option.Rel (Line.Alike L) l.significant? m.significant?)
    (rest : List.Forall₂ (RawLine.Alike L) ls ms) : ReadAlike L (l :: ls) (m :: ms) := by
  have kind : kindBehindTags (l :: ls) = kindBehindTags (m :: ms) := by
    rw [kindBehindTags, kindBehindTags]
    generalize l.significant? = a at line
    generalize m.significant? = b at line
    cases line with
    | none => exact h.kind
    | some here => simp only [← here.kind, h.kind]
  have items : List.Forall₂ (Item.Alike L) (Item.ofLines none (l :: ls))
      (Item.ofLines none (m :: ms)) := by
    rw [Item.ofLines, Item.ofLines]
    generalize l.significant? = a at line
    generalize m.significant? = b at line
    cases line with
    | none => exact h.items
    | some here =>
      dsimp only
      rw [← here.kind]
      split
      · exact Item.alike_ofLines (.some ⟨here, .nil⟩) rest
      · exact .cons (.line here) h.items
  have first : Option.Rel (Line.Alike L) ((l :: ls).findSome? RawLine.significant?)
      ((m :: ms).findSome? RawLine.significant?) := by
    rw [List.findSome?_cons, List.findSome?_cons]
    generalize l.significant? = a at line
    generalize m.significant? = b at line
    cases line with
    | none => exact h.first
    | some here => exact .some here
  have skipped : List.Forall₂ (Line.Alike L) (skipJunk (l :: ls)).1 (skipJunk (m :: ms)).1 ∧
      List.Forall₂ (Item.Alike L) (Item.ofLines none (skipJunk (l :: ls)).2)
        (Item.ofLines none (skipJunk (m :: ms)).2) := by
    rw [skipJunk, skipJunk, ← kind]
    generalize l.significant? = a at line
    generalize m.significant? = b at line
    cases line with
    | none => exact ⟨h.junk, h.below⟩
    | some here =>
      dsimp only
      split
      · exact ⟨.nil, items⟩
      · exact ⟨.cons here h.junk, h.below⟩
  exact ⟨kind, first, skipped.1, skipped.2, items⟩

lemma readAlike_of_alike (h : List.Forall₂ (RawLine.Alike L) ls ms) : ReadAlike L ls ms := by
  induction h with
  | nil => exact ⟨rfl, .none, .nil, .nil, .nil⟩
  | cons first rest ih => exact ih.cons first.significant? rest

lemma ReadAlike.missing? (h : ReadAlike L ls ms) (stop : L.token eof eof') :
    Option.Rel (MissingHeader.Alike L) (missing? eof ls) (missing? eof' ms) := by
  rw [Opening.missing?, Opening.missing?, ← h.kind]
  split
  · exact .none
  · refine .some ⟨rfl, ?_⟩
    have first := h.first
    rw [firstToken, firstToken]
    generalize ls.findSome? RawLine.significant? = a at first
    generalize ms.findSome? RawLine.significant? = b at first
    cases first with
    | none => exact stop
    | some here => exact here.head

lemma alike_takeHeading {items items' : List Item} (h : List.Forall₂ (Item.Alike L) items items') :
    Item.Reads L (Option.Rel (Heading.Alike L)) (takeHeading items) (takeHeading items') := by
  have heading := Heading.alike_take? h
  rw [takeHeading, takeHeading]
  generalize Heading.take? items = a at heading
  generalize Heading.take? items' = b at heading
  cases heading with
  | none => exact ⟨.none, h⟩
  | some here =>
    dsimp only
    rw [← here.value.kind]
    split
    · exact ⟨.some here.value, here.rest⟩
    · exact ⟨.none, h⟩

lemma alike_anchorOf {junk junk' : List Line} {items items' : List Item} {stop stop' : Mark}
    (ends : L.mark stop stop') (skipped : List.Forall₂ (Line.Alike L) junk junk')
    (h : List.Forall₂ (Item.Alike L) items items') :
    L.mark (anchorOf stop junk items) (anchorOf stop' junk' items') := by
  have last := skipped.getLast?
  rw [anchorOf, anchorOf]
  generalize junk.getLast? = a at last
  generalize junk'.getLast? = b at last
  cases last with
  | none => exact Item.alike_startOf ends h
  | some here => exact here.stop

lemma ReadAlike.take (h : ReadAlike L ls ms) (stop : L.token eof eof') :
    Item.Reads L (Alike L) (take eof ls) (take eof' ms) := by
  have heading := alike_takeHeading h.below
  exact ⟨⟨h.missing? stop, h.junk, heading.value, alike_anchorOf (L.start stop) h.junk h.below⟩,
    heading.rest⟩

end Opening

lemma Feature.alike_ofLines (stop : L.token eof eof') (h : Opening.ReadAlike L ls ms) :
    Alike L (ofLines eof ls) (ofLines eof' ms) := by
  have opening := h.take stop
  have background := Background.alike_take (L.start stop) opening.rest
  exact ⟨opening.value, Item.alike_startOf (L.start stop) opening.rest, background.value,
    Content.alike_ofItems (L.start stop) background.rest⟩

end FeatureFile
