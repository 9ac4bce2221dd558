import ConfLex.Config.Datum
import ConfLex.Config.Load
import ConfLex.Config.Settings
import ConfLex.Diagnostic.Basic
import ConfLex.Diagnostic.Handler
import ConfLex.Diagnostic.Render
import ConfLex.Host.Basic
import ConfLex.Host.Machine
import ConfLex.Lex.ByteClass
import ConfLex.Lex.Collector
import ConfLex.Lex.Cursor
import ConfLex.Lex.Error
import ConfLex.Lex.Lexer
import ConfLex.Lex.Listener
import ConfLex.Lex.Operator
import ConfLex.Lex.Scan
import ConfLex.Lex.Token
import ConfLex.Lex.Trace
import ConfLex.Main
import ConfLex.Proofs.Boundaries
import ConfLex.Proofs.Caret
import ConfLex.Proofs.Delimited
import ConfLex.Proofs.Checking
import ConfLex.Proofs.Driver
import ConfLex.Proofs.Dumping
import ConfLex.Proofs.Encoding
import ConfLex.Proofs.Faults
import ConfLex.Proofs.Grammar
import ConfLex.Proofs.LineBreaks
import ConfLex.Proofs.LineIndex
import ConfLex.Proofs.Lines
import ConfLex.Proofs.Limits
import ConfLex.Proofs.Listening
import ConfLex.Proofs.Longest
import ConfLex.Proofs.Munch
import ConfLex.Proofs.Positions
import ConfLex.Proofs.Progress
import ConfLex.Proofs.Relocation
import ConfLex.Proofs.Resuming
import ConfLex.Proofs.Signals
import ConfLex.Proofs.Tokenize
import ConfLex.Source.File
import ConfLex.Source.Span
import ConfLex.Text.GraphemeExtend
import ConfLex.Text.Json
import ConfLex.Text.Quoted
import ConfLex.Text.Unprintable
import ConfLex.Text.Utf8
import ConfLex.Toml.Document
import ConfLex.Toml.Lexical
import ConfLex.Tool.Check
import ConfLex.Tool.Cli
import ConfLex.Tool.Error
import ConfLex.Tool.Format
import ConfLex.Tool.Session
import ConfLex.Tool.Tokens
