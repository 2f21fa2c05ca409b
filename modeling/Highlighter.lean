import Highlighter.Cursor.Bytes
import Highlighter.Document.Edit
import Highlighter.Language
import Highlighter.Lexer.Bytes
import Highlighter.Main
import Highlighter.Proofs.Document.Relex
import Highlighter.Proofs.Lexeme.Recognized
import Highlighter.Proofs.Cursor
import Highlighter.Proofs.Lexer.Run
import Highlighter.Proofs.Lexer.Literal
import Highlighter.Proofs.Lexer.Word
import Highlighter.Proofs.Document.Coherence
import Highlighter.Proofs.Document.Repaint
import Highlighter.Proofs.Lexer.Cover
import Highlighter.Proofs.Lexeme.Argument
import Highlighter.Proofs.Lexer.Keyword
import Highlighter.Proofs.Lexer.Carried
import Highlighter.Proofs.Document.Converge
import Highlighter.Proofs.Lexeme.Lookahead
import Highlighter.Proofs.Lexer.Alike
import Highlighter.Proofs.Numeral
import Highlighter.Proofs.Literal.Opaque
import Highlighter.Proofs.Lexer.Trace
import Highlighter.Proofs.Lexer.Lock
import Highlighter.Proofs.Document.Depth
import Highlighter.Proofs.Lexeme.Grammar
import Highlighter.Proofs.Lexer.Grammar
import Highlighter.Proofs.Text
import Highlighter.Proofs.Line
import Highlighter.Proofs.Json.Reader
import Highlighter.Proofs.Json.Written
import Highlighter.Proofs.Listing.Records
import Highlighter.Proofs.Listing.Writing
import Highlighter.Proofs.Listing.Decoding
import Highlighter.Proofs.Listing.Run
import Highlighter.Proofs.Summary.Run
import Highlighter.Proofs.Toml.String
import Highlighter.Proofs.Toml.Value
import Highlighter.Proofs.FileTree
import Highlighter.Proofs.Toml.Statement
import Highlighter.Proofs.Settings.File
import Highlighter.Proofs.Lexer.Sign
import Highlighter.Document.Columns
import Highlighter.Proofs.Document.Columns
import Highlighter.Proofs.FileTree.Growth
import Highlighter.Proofs.Settings.Setup
import Highlighter.Proofs.Document.Reassembly
import Highlighter.Proofs.Lexeme.Blanks
import Highlighter.Proofs.Lexer.Blanks
import Highlighter.Proofs.Summary.Counts
import Highlighter.Proofs.Program
import Highlighter.Proofs.Text.Bytes
import Highlighter.Proofs.Cursor.Bytes
import Highlighter.Proofs.Numeral.Bytes
import Highlighter.Proofs.Lexer.Bytes
import Highlighter.Proofs.Lexer.Call
import Highlighter.Proofs.Lexer.Flags
