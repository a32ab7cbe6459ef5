import FeatureFile.Document.Item

namespace FeatureFile

inductive Entry (α : Type) where
  | placed (value : α)
  | stray (item : Item)

namespace Entry

def isStray {α : Type} : Entry α → Bool
  | placed _ => false
  | stray _ => true

end Entry

structure Step where
  line : Line
  block : Option Block
  rows : List Line
  deriving DecidableEq, Repr

structure Steps where
  anchor : Mark
  entries : List (Entry Step)

namespace Step

def takeBlock : List Item → Option Block × List Item
  | .block b :: rest => (some b, rest)
  | items => (none, items)

theorem length_takeBlock_le (items : List Item) : (takeBlock items).2.length ≤ items.length := by
  unfold takeBlock
  split <;> simp

def takeRows (items : List Item) : List Line × List Item :=
  Item.takeLines (· = .pipe) items

def take (l : Line) (items : List Item) : Step × List Item :=
  let (block, below) := takeBlock items
  let (rows, rest) := takeRows below
  (⟨l, block, rows⟩, rest)

theorem length_take_le (l : Line) (items : List Item) : (take l items).2.length ≤ items.length :=
  Nat.le_trans (Item.length_takeLines_le _ _) (length_takeBlock_le items)

end Step

namespace Steps

def entriesOf : List Item → List (Entry Step)
  | [] => []
  | .block b :: rest => .stray (.block b) :: entriesOf rest
  | .line l :: rest =>
    if l.kind.isStep then .placed (Step.take l rest).1 :: entriesOf (Step.take l rest).2
    else .stray (.line l) :: entriesOf rest
termination_by items => items.length
decreasing_by
  · simp
  · have := Step.length_take_le l rest
    simp
    omega
  · simp

def take (anchor : Mark) (items : List Item) : Steps × List Item :=
  (⟨anchor, entriesOf (items.takeWhile (·.kind.isBody))⟩, items.dropWhile (·.kind.isBody))

theorem length_take_le (anchor : Mark) (items : List Item) :
    (take anchor items).2.length ≤ items.length :=
  (List.dropWhile_suffix _).length_le

end Steps

end FeatureFile
