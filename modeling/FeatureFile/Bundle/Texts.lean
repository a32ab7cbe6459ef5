import FeatureFile.Bundle.Language
import FeatureFile.Locale.Loading
import FeatureFile.Locale.Message

namespace FeatureFile.Locale

inductive Piece where
  | fixed (text : String)
  | slot (name : String)
  deriving DecidableEq, Repr

namespace Message

def all : List Message :=
  [severityError, severityWarning, located, openString, openDocString, missingFeature, unexpected,
   misplacedExamples, missingExamples, missingTable, emptyTag, unevenRow]

def ofId? (id : String) : Option Message :=
  all.find? (·.id = id)

def english : Message → List Piece
  | severityError => [.fixed "error"]
  | severityWarning => [.fixed "warning"]
  | located =>
    [.slot "line", .fixed ":", .slot "column", .fixed ": ", .slot "severity", .fixed ": ",
     .slot "message"]
  | openString => [.fixed "quoted string is not closed on the same line"]
  | openDocString => [.fixed "doc string block is not closed before the end of the file"]
  | missingFeature => [.fixed "expected a Feature header before ", .slot "found"]
  | unexpected => [.fixed "unexpected ", .slot "found", .fixed " in ", .slot "context"]
  | misplacedExamples => [.fixed "Examples section follows a scenario that is not an outline"]
  | missingExamples => [.fixed "scenario outline has no Examples section"]
  | missingTable => [.fixed "Examples section has no table"]
  | emptyTag => [.fixed "tag has no name"]
  | unevenRow =>
    [.fixed "table row ", .slot "row", .fixed " has ", .slot "actual",
     .fixed " cells but the header has ", .slot "expected"]

def russian : Message → List Piece
  | severityError => [.fixed "ошибка"]
  | severityWarning => [.fixed "предупреждение"]
  | located => english located
  | openString => [.fixed "строка в кавычках не закрыта в пределах строки"]
  | openDocString => [.fixed "многострочный параметр не закрыт до конца файла"]
  | missingFeature => [.fixed "ожидается заголовок функционала перед ", .slot "found"]
  | unexpected => [.fixed "неожиданный элемент ", .slot "found", .fixed " в ", .slot "context"]
  | misplacedExamples =>
    [.fixed "примеры указаны после сценария, который не является структурой сценария"]
  | missingExamples => [.fixed "у структуры сценария нет примеров"]
  | missingTable => [.fixed "в примерах нет таблицы"]
  | emptyTag => [.fixed "у тега нет имени"]
  | unevenRow =>
    [.fixed "в строке таблицы ", .slot "row", .fixed " ячеек ", .slot "actual",
     .fixed ", а в заголовке ", .slot "expected"]

def pieces (m : Message) (l : Language) : List Piece :=
  if l = .russian then m.russian else m.english

end Message

namespace Piece

def fill (arguments : Arguments) (name : String) : String :=
  (arguments.lookup name).getD ("\x7b$" ++ name ++ "\x7d")

def render (arguments : Arguments) : Piece → String
  | fixed text => text
  | slot name => "\u2068" ++ fill arguments name ++ "\u2069"

end Piece

def preferred (languages : List Language) : Language :=
  languages.head?.getD .english

def lookUp (languages : List Language) (id : String) (arguments : Arguments) : String :=
  match Message.ofId? id with
  | some m => String.join ((m.pieces (preferred languages)).map (Piece.render arguments))
  | none => "No localization for id: \"" ++ id ++ "\""

instance : Coe (List Language) Wording := ⟨fun languages => ⟨lookUp languages⟩⟩

@[reducible] def bundled : Loading where
  Tag := Language
  Loader := List Language
  Failure := Empty
  english := .english
  fresh := [.english]
  select number requests loaders :=
    (.ok (Language.select requests), replace loaders number (Language.select requests))
  languages := id
  text := lookUp

end FeatureFile.Locale
