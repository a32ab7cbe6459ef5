import FeatureFile.Diagnostic
import FeatureFile.Document.Feature
import FeatureFile.Document.Item
import FeatureFile.Document.Line
import FeatureFile.Document.Parts
import FeatureFile.Document.Remarks
import FeatureFile.Document.Scenario
import FeatureFile.Document.Steps
import FeatureFile.Document.Tree
import FeatureFile.Journal
import FeatureFile.Keyword
import FeatureFile.Lexeme
import FeatureFile.Scanner
import FeatureFile.Proofs.Lexeme.Rules
import FeatureFile.Proofs.Lexeme.Line
import FeatureFile.Literal
import FeatureFile.Literal.Value
import FeatureFile.Bundle.Language
import FeatureFile.Bundle.Texts
import FeatureFile.Locale.Loading
import FeatureFile.Locale.Message
import FeatureFile.Locale.Report
import FeatureFile.Locale.Scope
import FeatureFile.Number.Double
import FeatureFile.Number.Integer
import FeatureFile.Number.Shortest
import FeatureFile.Parse
import FeatureFile.Position
import FeatureFile.Proofs.Diagnostics
import FeatureFile.Proofs.Document.Body
import FeatureFile.Proofs.Document.Items
import FeatureFile.Proofs.Document.OpenFence
import FeatureFile.Proofs.Document.Partition
import FeatureFile.Proofs.Document.Scanned
import FeatureFile.Proofs.Grammar.Accepts
import FeatureFile.Proofs.Grammar.Basic
import FeatureFile.Proofs.Grammar.Complete
import FeatureFile.Proofs.Grammar.CompleteFeature
import FeatureFile.Proofs.Grammar.Follow
import FeatureFile.Proofs.Grammar.Headings
import FeatureFile.Proofs.Grammar.Segments
import FeatureFile.Proofs.Grammar.Sound
import FeatureFile.Proofs.Grammar.Spells
import FeatureFile.Proofs.Keyword
import FeatureFile.Proofs.Lexeme.Cut
import FeatureFile.Proofs.Lexeme.Lossless
import FeatureFile.Proofs.Lexeme.Shape
import FeatureFile.Proofs.Text.Lines
import FeatureFile.Proofs.Text.Slice
import FeatureFile.Proofs.Token.Keeps
import FeatureFile.Proofs.Token.Place
import FeatureFile.Proofs.Token.Stream
import FeatureFile.Proofs.Tree.Accounts
import FeatureFile.Proofs.Tree.Complete
import FeatureFile.Proofs.Tree.Errors
import FeatureFile.Proofs.Tree.Faults
import FeatureFile.Proofs.Tree.Leaves
import FeatureFile.Proofs.Tree.Nodes
import FeatureFile.Runtime
import FeatureFile.Session
import FeatureFile.Settings
import FeatureFile.Text.Alphanumeric
import FeatureFile.Text.Blank
import FeatureFile.Text.FoldCase
import FeatureFile.Text.Lines
import FeatureFile.Text.Printable
import FeatureFile.Text.Quoted
import FeatureFile.Text.Ranges
import FeatureFile.Text.Utf8
import FeatureFile.Token.Basic
import FeatureFile.Token.Kind
import FeatureFile.Token.Stream
import FeatureFile.Tree.Basic
import FeatureFile.Tree.Rule
import FeatureFile.View.Basic
import FeatureFile.View.Header
import FeatureFile.View.Section
import FeatureFile.View.Table
import FeatureFile.Proofs.Lexeme.Row
import FeatureFile.Proofs.Document.Formed
import FeatureFile.Proofs.Tree.Shape
import FeatureFile.Proofs.Tree.Shaped
import FeatureFile.Proofs.Document.Headers
import FeatureFile.Proofs.Tree.Rank
import FeatureFile.Proofs.Tree.Sections
import FeatureFile.Proofs.Tree.Sites
import FeatureFile.Proofs.Tree.SectionSites
import FeatureFile.Proofs.Recovery
import FeatureFile.Proofs.Document.Flat
import FeatureFile.Proofs.Shift.Items
import FeatureFile.Proofs.Shift.Sections
import FeatureFile.Proofs.Text.Append
import FeatureFile.Proofs.Shift.Trees
import FeatureFile.Proofs.Token.Append
import FeatureFile.Proofs.Locality
import FeatureFile.Proofs.Alike.Lists
import FeatureFile.Proofs.Alike.Items
import FeatureFile.Proofs.Alike.Sections
import FeatureFile.Proofs.Alike.Document
import FeatureFile.Proofs.Alike.Trees
import FeatureFile.Proofs.Alike.Mirrors
import FeatureFile.Proofs.Alike.Remarks
import FeatureFile.Proofs.Alike.Parse
import FeatureFile.Proofs.Text.Position
import FeatureFile.Proofs.Positions
import FeatureFile.Proofs.Text.Normalize
import FeatureFile.Proofs.LineEndings
import FeatureFile.Proofs.Alike.Insert
import FeatureFile.Proofs.Layout
import FeatureFile.Proofs.Token.Reports
import FeatureFile.Proofs.LineForms
import FeatureFile.Proofs.Tree.ShapedLines
import FeatureFile.Proofs.Document.Seam
import FeatureFile.Proofs.Document.Lexed
import FeatureFile.Proofs.LineByLine
import FeatureFile.Proofs.Tree.Tables
import FeatureFile.Proofs.UnevenRows
import FeatureFile.Proofs.Tree.Steps
import FeatureFile.Proofs.Grammar.Grow
import FeatureFile.Proofs.Clean
import FeatureFile.Proofs.Document.Written
import FeatureFile.Proofs.Table.Written
import FeatureFile.Proofs.Table.ReadBack
import FeatureFile.Proofs.DocString.Written
import FeatureFile.Proofs.DocString.ReadBack
import FeatureFile.Proofs.Tree.Bounds
import FeatureFile.Proofs.Tree.SectionBounds
import FeatureFile.Proofs.Nesting
import FeatureFile.Proofs.Keyword.Longest
import FeatureFile.Proofs.Token.Passage
import FeatureFile.Proofs.Keyword.Recognition
import FeatureFile.Proofs.FreeText.Scan
import FeatureFile.Proofs.FreeText.Segments
import FeatureFile.Proofs.LetterCase.Scan
import FeatureFile.Proofs.LetterCase.Lexemes
import FeatureFile.Proofs.Alike.Tokens
import FeatureFile.Proofs.LetterCase
import FeatureFile.Proofs.HeaderKeywords
import FeatureFile.Proofs.Document.Reread
import FeatureFile.Proofs.BodyContent
import FeatureFile.Proofs.Tree.Traced
import FeatureFile.Proofs.Tree.LineParts
import FeatureFile.Proofs.Document.SourceLines
import FeatureFile.Proofs.Document.Placed
import FeatureFile.Proofs.Table.Cells
import FeatureFile.Proofs.TagNames
import FeatureFile.Proofs.Shift.Document
import FeatureFile.Proofs.Shift.Remarks
import FeatureFile.Proofs.ByteOrderMark
import FeatureFile.Proofs.Literal.Denotes
import FeatureFile.Proofs.LiteralValues
import FeatureFile.Proofs.FreeText.Trim
import FeatureFile.Proofs.Document.Titles
import FeatureFile.Proofs.Document.TitleLines
import FeatureFile.Proofs.Document.Descriptions
import FeatureFile.Proofs.Tree.Titles
import FeatureFile.Proofs.Tree.TitleViews
import FeatureFile.Proofs.Titles
import FeatureFile.Proofs.Descent.Reader
import FeatureFile.Proofs.Descent.Lines
import FeatureFile.Proofs.Descent.Sections
import FeatureFile.Proofs.Descent.Items
import FeatureFile.Proofs.Descent.Gives
import FeatureFile.Proofs.Descent.LineReading
import FeatureFile.Proofs.Descent.Agreement
import FeatureFile.Proofs.Descent.Opening
import FeatureFile.Proofs.Descent
import FeatureFile.Proofs.Locale.Runs
import FeatureFile.Proofs.Locale.Scopes
import FeatureFile.Proofs.Scopes
import FeatureFile.Proofs.Lookahead
import FeatureFile.Proofs.Tree.Assembly
import FeatureFile.Proofs.Tree.Places
import FeatureFile.Proofs.Traversal
