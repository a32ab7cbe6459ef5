import FeatureFile.Text.Utf8

/-!
Places in a text. Lines count from one and columns from zero, in characters; offsets count bytes.
Lines and columns are numbers of 32 bits: what would go beyond them stays at the last.
-/

namespace FeatureFile

structure Position where
  line : Nat
  column : Nat
  deriving DecidableEq, Repr

namespace Position

def start : Position := ⟨1, 0⟩

def compare (a b : Position) : Ordering :=
  (Ord.compare a.line b.line).then (Ord.compare a.column b.column)

def render (p : Position) : String :=
  toString p.line ++ ":" ++ toString p.column

def limit : Nat := 4294967295

/-- Adds as much as there is room for below the limit. -/
def add (a count : Nat) : Nat :=
  a + min count (limit - a)

def nextLine (p : Position) : Position :=
  ⟨add p.line 1, 0⟩

def right (p : Position) (count : Nat) : Position :=
  ⟨p.line, add p.column count⟩

@[simp] theorem add_zero (a : Nat) : add a 0 = a := by
  simp [add]

theorem add_add (a m n : Nat) : add (add a m) n = add a (m + n) := by
  simp only [add]
  omega

theorem add_right_comm (a m n : Nat) : add (add a m) n = add (add a n) m := by
  rw [add_add, add_add, Nat.add_comm]

end Position

structure Mark where
  offset : Nat
  position : Position
  deriving DecidableEq, Repr

namespace Mark

def pass (m : Mark) (text : List Char) : Mark :=
  ⟨m.offset + Text.byteLength text, m.position.right text.length⟩

def passBreak (m : Mark) (text : List Char) : Mark :=
  ⟨m.offset + Text.byteLength text, m.position.nextLine⟩

end Mark

end FeatureFile
