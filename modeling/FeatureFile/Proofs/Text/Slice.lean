import Mathlib.Tactic.Lemma
import FeatureFile.Text.Utf8

namespace FeatureFile.Text

def takeBytes? (count : Nat) : List Char → Option (List Char)
  | [] => if count = 0 then some [] else none
  | c :: rest =>
    if count = 0 then some []
    else if c.utf8Size ≤ count then (takeBytes? (count - c.utf8Size) rest).map (c :: ·)
    else none

def dropBytes? (count : Nat) : List Char → Option (List Char)
  | [] => if count = 0 then some [] else none
  | c :: rest =>
    if count = 0 then some (c :: rest)
    else if c.utf8Size ≤ count then dropBytes? (count - c.utf8Size) rest
    else none

def slice? (text : List Char) (start stop : Nat) : Option (List Char) :=
  if start ≤ stop then (dropBytes? start text).bind (takeBytes? (stop - start)) else none

@[simp] lemma byteLength_nil : byteLength [] = 0 := rfl

@[simp] lemma byteLength_append (xs ys : List Char) :
    byteLength (xs ++ ys) = byteLength xs + byteLength ys := by
  induction xs with
  | nil => simp
  | cons c xs ih => simp [byteLength, ih, Nat.add_assoc]

lemma byteLength_pos {xs : List Char} (h : xs ≠ []) : 0 < byteLength xs := by
  cases xs with
  | nil => exact absurd rfl h
  | cons c xs =>
    have := c.utf8Size_pos
    simp only [byteLength]
    omega

lemma dropBytes?_append (xs ys : List Char) : dropBytes? (byteLength xs) (xs ++ ys) = some ys := by
  induction xs with
  | nil => cases ys <;> simp [dropBytes?]
  | cons c xs ih =>
    simpa [dropBytes?, byteLength, Nat.ne_of_gt c.utf8Size_pos] using ih

lemma takeBytes?_append (xs ys : List Char) : takeBytes? (byteLength xs) (xs ++ ys) = some xs := by
  induction xs with
  | nil => cases ys <;> simp [takeBytes?]
  | cons c xs ih =>
    simp [takeBytes?, byteLength, Nat.ne_of_gt c.utf8Size_pos, ih]

lemma slice?_append (xs ys zs : List Char) :
    slice? (xs ++ (ys ++ zs)) (byteLength xs) (byteLength xs + byteLength ys) = some ys := by
  simp [slice?, dropBytes?_append, takeBytes?_append]

lemma mark_append_stripMark (text : List Char) :
    ∃ front, text = front ++ stripMark text ∧
      byteLength front = if text.head? = some byteOrderMark then 3 else 0 := by
  cases text with
  | nil => exact ⟨[], rfl, rfl⟩
  | cons c rest =>
    by_cases h : c = byteOrderMark
    · subst h
      exact ⟨[byteOrderMark], by simp [stripMark], by simp [byteLength]; decide⟩
    · exact ⟨[], by simp [stripMark, h], by simp [h]⟩

end FeatureFile.Text
