import FeatureFile.Token.Kind
import FeatureFile.Text.FoldCase

/-!
The dictionary of keywords in English and Russian, and the keyword at the start of a text: the
longest phrase that stands there in any letter case and is properly ended.
-/

namespace FeatureFile

def HeaderWord.phrases : HeaderWord → List String
  | .feature => ["Feature", "Функция", "Функционал", "Функциональность", "Свойство"]
  | .background => ["Background", "Контекст", "Предыстория"]
  | .rule => ["Rule", "Правило"]
  | .scenario => ["Scenario", "Сценарий"]
  | .example => ["Example", "Пример"]
  | .outline =>
    ["Scenario outline", "Scenario template", "Структура сценария", "Шаблон сценария"]
  | .examples => ["Examples", "Примеры"]
  | .scenarios => ["Scenarios", "Сценарии"]

def StepWord.phrases : StepWord → List String
  | .given => ["Given", "Дано", "Допустим", "Пусть", "Ну и пусть"]
  | .when => ["When", "Когда"]
  | .ifStep => ["If", "Если"]
  | .thenStep => ["Then", "Тогда", "То", "Затем"]
  | .and => ["And", "И", "К тому же", "Также", "Но и"]
  | .but => ["But", "Но", "А", "Иначе"]

def TokenKind.phrases : TokenKind → List String
  | header word => word.phrases
  | step word => word.phrases
  | _ => []

namespace Keyword

def kinds : List TokenKind :=
  [.header .feature, .header .background, .header .rule, .header .scenario, .header .example,
   .header .outline, .header .examples, .header .scenarios, .step .given, .step .when,
   .step .ifStep, .step .thenStep, .step .and, .step .but]

structure Match where
  kind : TokenKind
  length : Nat
  deriving DecidableEq, Repr

/-- The text behind a phrase, where the text starts with the phrase up to letter case. -/
def after? : List Char → List Char → Option (List Char)
  | [], text => some text
  | _ :: _, [] => none
  | p :: phrase, c :: text =>
    if Text.foldCase c = Text.foldCase p then after? phrase text else none

def endsBefore (kind : TokenKind) (rest : List Char) : Bool :=
  match rest with
  | [] => !kind.isHeader
  | c :: _ => if kind.isHeader then c = ':' else c ∈ [' ', '\t', '\r', '\n', '#']

def matchPhrase (text : List Char) (kind : TokenKind) (phrase : String) : Option Match :=
  match after? phrase.toList text with
  | some rest => if endsBefore kind rest then some ⟨kind, phrase.toList.length⟩ else none
  | none => none

def candidates (text : List Char) : List Match :=
  kinds.flatMap fun kind => kind.phrases.filterMap (matchPhrase text kind)

def longest : List Match → Option Match
  | [] => none
  | m :: rest =>
    match longest rest with
    | some n => if m.length < n.length then some n else some m
    | none => some m

def at? (text : List Char) : Option Match :=
  longest (candidates text)

end Keyword

end FeatureFile
