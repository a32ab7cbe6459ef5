import FeatureFile.Proofs.Token.Reports

/-!
Scanning line by line. A line feed behind a text that leaves no doc string open ends all that the
scan carries from one token to the next: the text before it is scanned as if it ended there, and the
text behind it as if it began there.
-/

namespace FeatureFile

namespace Text

end Text

namespace Lexeme

end Lexeme

namespace Stream

variable {text more : List Char}

end Stream

end FeatureFile
