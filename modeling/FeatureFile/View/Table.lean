import FeatureFile.View.Basic

namespace FeatureFile

namespace Cell

def unescapeChar (c : Char) : List Char :=
  if c = 'n' then ['\n']
  else if c = '|' || c = '\\' then [c]
  else ['\\', c]

def unescape : List Char → List Char
  | '\\' :: c :: rest => unescapeChar c ++ unescape rest
  | c :: rest => c :: unescape rest
  | [] => []

end Cell

namespace View

def head? (v : View .table) : Option (View .tableRow) :=
  (v.child? .tableHead).bind (·.child? .tableRow)

def rows (v : View .table) : List (View .tableRow) :=
  match v.child? .tableRows with
  | some rows => rows.childrenOf .tableRow
  | none => []

def cells (v : View .tableRow) : List (View .tableCell) :=
  v.childrenOf .tableCell

def rawValue? (v : View .tableCell) : Option (List Char) :=
  (v.child? .tableCellValue).bind fun w => w.tree.ownTokens.head?.map (·.text)

def cellValue (v : View .tableCell) : List Char :=
  (v.rawValue?.map Cell.unescape).getD []

def values (v : View .tableRow) : List (List Char) :=
  v.cells.map cellValue

end View

end FeatureFile
