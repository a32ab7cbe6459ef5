import FeatureFile.Text.Printable

/-!
The quoted form of a text in reports: double quotes around it, a backslash before a quote or a
backslash, short escapes for tab, line breaks and the null character, and the code point in
hexadecimal for all else that does not print.
-/

namespace FeatureFile.Text

def escape (c : Char) : List Char :=
  match c with
  | '\t' => ['\\', 't']
  | '\r' => ['\\', 'r']
  | '\n' => ['\\', 'n']
  | '\x00' => ['\\', '0']
  | '"' => ['\\', '"']
  | '\\' => ['\\', '\\']
  | c =>
    if isPrintable c then [c]
    else ['\\', 'u', '\x7b'] ++ Nat.toDigits 16 c.toNat ++ ['\x7d']

def quote (text : List Char) : List Char :=
  '"' :: text.flatMap escape ++ ['"']

end FeatureFile.Text
