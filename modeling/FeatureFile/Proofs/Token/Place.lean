import Mathlib.Data.List.Chain
import FeatureFile.Proofs.Lexeme.Lossless
import FeatureFile.Proofs.Lexeme.Shape
import FeatureFile.Proofs.Text.Slice
import FeatureFile.Token.Stream

namespace FeatureFile

@[simp] lemma Mark.offset_advance (m : Mark) (kind : TokenKind) (text : List Char) :
    (m.advance kind text).offset = m.offset + Text.byteLength text := by
  rw [Mark.advance]
  split <;> rfl

namespace Token

def place : Mark → List Lexeme → List Token
  | _, [] => []
  | m, l :: rest => ⟨l.kind, l.text, m⟩ :: place (m.advance l.kind l.text) rest

def placeEnd : Mark → List Lexeme → Mark
  | m, [] => m
  | m, l :: rest => placeEnd (m.advance l.kind l.text) rest

@[simp] lemma offset_stop (t : Token) : t.stop.offset = t.start.offset + Text.byteLength t.text :=
  t.start.offset_advance t.kind t.text

@[simp] lemma map_kind_place (m : Mark) (ls : List Lexeme) :
    (place m ls).map Token.kind = Lexeme.kinds ls := by
  induction ls generalizing m with
  | nil => rfl
  | cons l ls ih => simp [place, Lexeme.kinds, ih]

@[simp] lemma map_text_place (m : Mark) (ls : List Lexeme) :
    (place m ls).map Token.text = ls.map Lexeme.text := by
  induction ls generalizing m with
  | nil => rfl
  | cons l ls ih => simp [place, ih]

lemma flatMap_text_place (m : Mark) (ls : List Lexeme) :
    (place m ls).flatMap (·.text) = ls.flatMap (·.text) := by
  rw [List.flatMap_def, map_text_place, ← List.flatMap_def]

lemma place_append (m : Mark) (ls more : List Lexeme) :
    place m (ls ++ more) = place m ls ++ place (placeEnd m ls) more := by
  induction ls generalizing m with
  | nil => rfl
  | cons l ls ih => simp [place, placeEnd, ih]

lemma placeEnd_append (m : Mark) (ls more : List Lexeme) :
    placeEnd m (ls ++ more) = placeEnd (placeEnd m ls) more := by
  induction ls generalizing m with
  | nil => rfl
  | cons l ls ih => simp [placeEnd, ih]

lemma exists_of_mem_place {m : Mark} {ls : List Lexeme} {t : Token} (h : t ∈ place m ls) :
    ∃ front l back, ls = front ++ l :: back ∧ t = ⟨l.kind, l.text, placeEnd m front⟩ := by
  induction ls generalizing m with
  | nil => cases h
  | cons l ls ih =>
    rcases List.mem_cons.mp h with rfl | h
    · exact ⟨[], l, ls, rfl, rfl⟩
    · obtain ⟨front, l', back, whole, same⟩ := ih h
      exact ⟨l :: front, l', back, by rw [whole, List.cons_append], same⟩

lemma offset_placeEnd (m : Mark) (ls : List Lexeme) :
    (placeEnd m ls).offset = m.offset + Text.byteLength (ls.flatMap Lexeme.text) := by
  induction ls generalizing m with
  | nil => rfl
  | cons l ls ih => simp [placeEnd, ih, Nat.add_assoc]

lemma isChain_place (m : Mark) (ls : List Lexeme) (kind : TokenKind) (text : List Char) :
    (place m ls ++ [Token.mk kind text (placeEnd m ls)]).IsChain (fun a b => b.start = a.stop) := by
  induction ls generalizing m with
  | nil => exact .singleton _
  | cons l ls ih =>
    refine List.isChain_cons.mpr ⟨?_, ih _⟩
    cases ls <;> simp [place, placeEnd, stop]

lemma head?_start_place (m : Mark) (ls : List Lexeme) (kind : TokenKind) (text : List Char) :
    (place m ls ++ [Token.mk kind text (placeEnd m ls)]).head?.map Token.start = some m := by
  cases ls <;> rfl

lemma slice?_of_mem_place {m : Mark} {ls : List Lexeme} {t : Token} (before after : List Char)
    (start : m.offset = Text.byteLength before) (h : t ∈ place m ls) :
    Text.slice? (before ++ (ls.flatMap Lexeme.text ++ after)) t.start.offset t.stop.offset =
      some t.text := by
  induction ls generalizing m before with
  | nil => cases h
  | cons l ls ih =>
    rcases List.mem_cons.mp h with rfl | h
    · simpa [start] using Text.slice?_append before l.text (ls.flatMap Lexeme.text ++ after)
    · simpa using ih (before ++ l.text) (by simp [start]) h

lemma offset_le_of_mem_place {m : Mark} {ls : List Lexeme} {t : Token} (h : t ∈ place m ls) :
    m.offset ≤ t.start.offset := by
  induction ls generalizing m with
  | nil => cases h
  | cons l ls ih =>
    rcases List.mem_cons.mp h with rfl | h
    · exact Nat.le_refl _
    · exact Nat.le_trans (by simp) (ih h)

lemma pairwise_place (m : Mark) {ls : List Lexeme} (nonempty : ∀ l ∈ ls, l.text ≠ [])
    (kind : TokenKind)
    (text : List Char) :
    (place m ls ++ [Token.mk kind text (placeEnd m ls)]).Pairwise
      (fun a b => a.start.offset < b.start.offset) := by
  induction ls generalizing m with
  | nil => exact List.pairwise_singleton _ _
  | cons l ls ih =>
    have positive := Text.byteLength_pos (nonempty l List.mem_cons_self)
    have rest := ih (m.advance l.kind l.text) (fun l h => nonempty l (List.mem_cons_of_mem _ h))
    refine List.pairwise_cons.mpr ⟨?_, rest⟩
    intro t h
    change m.offset < t.start.offset
    rcases List.mem_append.mp h with h | h
    · have := offset_le_of_mem_place h
      simp only [Mark.offset_advance] at this
      omega
    · obtain rfl := List.mem_singleton.mp h
      simp only [offset_placeEnd, placeEnd, Mark.offset_advance]
      omega

end Token

end FeatureFile
