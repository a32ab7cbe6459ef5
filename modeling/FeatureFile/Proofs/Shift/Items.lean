import FeatureFile.Proofs.Document.Items

namespace FeatureFile

/-- How far something is moved down: by bytes and by lines. Columns stay, and lines do not go beyond
their limit. -/
structure Shift where
  bytes : Nat
  lines : Nat

namespace Mark

def shift (d : Shift) (m : Mark) : Mark :=
  ⟨m.offset + d.bytes, Position.add m.position.line d.lines, m.position.column⟩

@[simp] lemma advance_shift (d : Shift) (m : Mark) (kind : TokenKind) (text : List Char) :
    (m.shift d).advance kind text = (m.advance kind text).shift d := by
  rw [advance, advance]
  split <;> simp [shift, pass, passBreak, Position.right, Position.nextLine, Nat.add_right_comm,
    Position.add_right_comm]

end Mark

namespace Token

def shift (d : Shift) (t : Token) : Token :=
  ⟨t.kind, t.text, t.start.shift d⟩

variable (d : Shift)

@[simp] lemma kind_shift (t : Token) : (t.shift d).kind = t.kind :=
  rfl

@[simp] lemma start_shift (t : Token) : (t.shift d).start = t.start.shift d :=
  rfl

@[simp] lemma stop_shift (t : Token) : (t.shift d).stop = t.stop.shift d :=
  t.start.advance_shift d t.kind t.text

lemma place_shift (m : Mark) (ls : List Lexeme) :
    place (m.shift d) ls = (place m ls).map (shift d) := by
  induction ls generalizing m with
  | nil => rfl
  | cons l ls ih =>
    rw [place, Mark.advance_shift, ih]
    rfl

lemma placeEnd_shift (m : Mark) (ls : List Lexeme) :
    placeEnd (m.shift d) ls = (placeEnd m ls).shift d := by
  induction ls generalizing m with
  | nil => rfl
  | cons l ls ih => rw [placeEnd, Mark.advance_shift, ih, placeEnd]

lemma dropWhile_shift (p : TokenKind → Bool) (ts : List Token) :
    (ts.map (shift d)).dropWhile (p ·.kind) = (ts.dropWhile (p ·.kind)).map (shift d) :=
  List.dropWhile_map ..

lemma takeWhile_shift (p : TokenKind → Bool) (ts : List Token) :
    (ts.map (shift d)).takeWhile (p ·.kind) = (ts.takeWhile (p ·.kind)).map (shift d) :=
  List.takeWhile_map ..

end Token

namespace Line

def shift (d : Shift) (l : Line) : Line :=
  ⟨l.head.shift d, l.tail.map (Token.shift d), l.ending.map (Token.shift d)⟩

variable (d : Shift) (l : Line)

@[simp] lemma kind_shift : (l.shift d).kind = l.kind :=
  rfl

@[simp] lemma start_shift : (l.shift d).start = l.start.shift d :=
  rfl

@[simp] lemma tokens_shift : (l.shift d).tokens = l.tokens.map (Token.shift d) := by
  cases ending : l.ending <;> simp [shift, tokens, ending]

lemma lastOf_shift (head : Token) (rest : List Token) :
    lastOf (head.shift d) (rest.map (Token.shift d)) = (lastOf head rest).shift d := by
  rw [lastOf, lastOf, List.getLast?_map]
  cases rest.getLast? <;> rfl

@[simp] lemma stop_shift : (l.shift d).stop = l.stop.shift d := by
  obtain ⟨head, tail, ending⟩ := l
  cases ending with
  | none => simp [shift, stop, contentStop, lastOf_shift]
  | some t => simp [shift, stop]

end Line

namespace RawLine

def shift (d : Shift) (l : RawLine) : RawLine :=
  ⟨l.content.map (Token.shift d), l.ending.map (Token.shift d)⟩

variable (d : Shift)

lemma tokens_shift (l : RawLine) : (l.shift d).tokens = l.tokens.map (Token.shift d) := by
  cases ending : l.ending <;> simp [shift, tokens, ending]

lemma prepend_shift (t : Token) (ls : List RawLine) :
    prepend (t.shift d) (ls.map (shift d)) = (prepend t ls).map (shift d) := by
  cases ls <;> rfl

lemma ofTokens_shift (ts : List Token) :
    ofTokens (ts.map (Token.shift d)) = (ofTokens ts).map (shift d) := by
  induction ts with
  | nil => rfl
  | cons t ts ih =>
    rw [List.map_cons, ofTokens, ofTokens, ih, prepend_shift, Token.kind_shift]
    split <;> rfl

lemma significant?_shift (l : RawLine) :
    (l.shift d).significant? = l.significant?.map (Line.shift d) := by
  rw [significant?, significant?, shift, Token.dropWhile_shift d TokenKind.isTrivia]
  cases l.content.dropWhile (·.kind.isTrivia) <;> rfl

end RawLine

def Block.shift (d : Shift) (b : Block) : Block :=
  ⟨b.opening.shift d, b.content.map (Token.shift d),
    b.closing.map fun (indent, fence) => (indent.map (Token.shift d), fence.shift d)⟩

namespace Item

def shift (d : Shift) : Item → Item
  | line l => line (l.shift d)
  | block b => block (b.shift d)

variable (d : Shift)

@[simp] lemma head_shift (i : Item) : (i.shift d).head = i.head.shift d := by
  cases i <;> rfl

@[simp] lemma kind_shift (i : Item) : (i.shift d).kind = i.kind := by
  cases i <;> rfl

lemma tokens_shift (i : Item) : (i.shift d).tokens = i.tokens.map (Token.shift d) := by
  cases i with
  | line l => exact l.tokens_shift d
  | block b =>
    obtain ⟨opening, content, closing⟩ := b
    cases closing <;> simp [shift, Block.shift, tokens, Block.tokens]

lemma startOf_shift (eof : Mark) (items : List Item) :
    startOf (eof.shift d) (items.map (shift d)) = (startOf eof items).shift d := by
  cases items with
  | nil => rfl
  | cons i items => simp [startOf]

lemma closing?_shift (l : RawLine) :
    closing? (l.shift d) = (closing? l).map fun (indent, fence, more) =>
      (indent.map (Token.shift d), fence.shift d, more.map (Token.shift d)) := by
  rw [closing?, closing?, RawLine.shift, Token.dropWhile_shift d TokenKind.isPad,
    Token.takeWhile_shift d TokenKind.isPad]
  cases l.content.dropWhile (·.kind.isPad) with
  | nil => rfl
  | cons t rest => by_cases fence : t.kind = .fence <;> simp [fence]

lemma behindFence_shift (rest : List Token) (ending : Option Token) :
    behindFence (rest.map (Token.shift d)) (ending.map (Token.shift d)) =
      (behindFence rest ending).map (shift d) := by
  rw [behindFence, behindFence, Token.dropWhile_shift d TokenKind.isPad]
  cases rest.dropWhile (·.kind.isPad) <;> rfl

lemma ofLines_shift (opened : Option (Line × List Token)) (ls : List RawLine) :
    ofLines (opened.map fun (l, content) => (l.shift d, content.map (Token.shift d)))
        (ls.map (RawLine.shift d)) = (ofLines opened ls).map (shift d) := by
  fun_induction ofLines opened ls with
  | case1 => rfl
  | case2 opening content => rfl
  | case3 l rest blank ih =>
    rw [List.map_cons, Option.map_none, ofLines, RawLine.significant?_shift, blank]
    exact ih
  | case4 l rest found here fence ih =>
    rw [List.map_cons, Option.map_none, ofLines, RawLine.significant?_shift, here]
    simpa [fence] using ih
  | case5 l rest found here other ih =>
    rw [List.map_cons, Option.map_none, ofLines, RawLine.significant?_shift, here]
    simpa [other, shift] using ih
  | case6 opening content l rest inner ih =>
    rw [List.map_cons, Option.map_some, ofLines, closing?_shift, inner]
    simpa [RawLine.tokens_shift] using ih
  | case7 opening content l rest indent fence more here ih =>
    rw [List.map_cons, Option.map_some, ofLines, closing?_shift, here, List.map_cons,
      List.map_append, ← behindFence_shift, ← ih]
    rfl

end Item

end FeatureFile
