import ConfLex.Tool.Session
import ConfLex.Tool.Format
import ConfLex.Config.Settings
import ConfLex.Lex.Collector
import ConfLex.Text.Json

/-!
# Dumping tokens

The `tokens` command lexes each input file and dumps its lexemes. All inputs are read before any
is lexed, so a missing file fails the command before anything is written. Each file is then
lexed in turn: its diagnostics go to the error stream, and a lexical error ends the command,
after the dumps of the files before it.

As text, a lexeme is one line `file:line:column`, its kind and its quoted text, separated by
tabs, where the position is that of the lexeme's first byte. As JSON, the dump is one array of
`{"file", "tokens"}` objects written after all files are lexed, with each lexeme an object
`{"kind", "text", "span", "line"}` whose kind is a name or, for an operator,
`{"operator": name}`.

The format and whether comments are kept come from the request when it gives them, and from the
settings otherwise. A limit stops each file after that many content lexemes.
-/

namespace ConfLex

/-- A request to dump tokens. -/
structure TokensRequest where
  /-- Whether to log each file lexed; the log is not part of the output. -/
  verbose : Bool := false
  /-- The paths of the input files. -/
  input : List String := []
  /-- The name of the output format, overriding the settings. -/
  format : Option String := none
  /-- Whether to leave comments out, overriding the settings. -/
  noComments : Bool := false
  /-- How many content lexemes to dump of each file at most. -/
  limit : Option Nat := none
  /-- Whether to render diagnostics without colour. -/
  noColor : Bool := false
  deriving DecidableEq, Repr, Inhabited

namespace TokensRequest

/-- The token settings in force: those of the request over those of the configuration. -/
def effective (req : TokensRequest) (settings : Settings) : TokensSettings :=
  { format := req.format.getD settings.tokens.format
    includeComments := settings.tokens.includeComments && !req.noComments }

/-- Lexes a file, reporting its diagnostics; its lexemes, or a lexical error. -/
def lexFile (host : Host) (req : TokensRequest) (includeComments : Bool) (file : SourceFile) :
    Session (List Lexeme) := do
  let run := Lexer.run Collector.listener (Cursor.new file.bytes file.name)
    { limit := req.limit, skipComments := !includeComments }
  printDiagnostics (stderrRenderer host req.noColor) run.cursor.reports file
  match run.result with
  | .error e => throw (.lex file.name e)
  | .ok () => pure run.state.lexemes.toList

/-- A lexeme as a line of the text dump. -/
def textLine (file : SourceFile) (x : Lexeme) : String :=
  file.name ++ ":" ++ (file.positionOf x.span.start).display ++ "\t" ++ x.kind.name ++ "\t" ++
    Quoted.text x.text ++ "\n"

/-- A kind in the JSON dump. -/
def kindValue : TokenKind → Json.Value
  | .operator op => .obj [("operator", .str op.name)]
  | kind => .str kind.name

/-- A lexeme in the JSON dump. -/
def lexemeValue (x : Lexeme) : Json.Value :=
  .obj [("kind", kindValue x.kind), ("text", .str x.text),
    ("span", .obj [("start", .num x.span.start), ("end", .num x.span.stop)]),
    ("line", .num x.line)]

/-- The JSON dump of files, each given by name with its lexemes. -/
def dumpValue (dumps : List (String × List Lexeme)) : Json.Value :=
  .arr (dumps.map fun (name, lexemes) =>
    .obj [("file", .str name), ("tokens", .arr (lexemes.map lexemeValue))])

/-- Lexes one file of the dump: as text, its lines are written at once; as JSON, the file and its
lexemes join the dumps to write at the end. -/
def dumpFile (host : Host) (req : TokensRequest) (includeComments : Bool) (format : OutputFormat)
    (dumps : List (String × List Lexeme)) (file : SourceFile) :
    Session (List (String × List Lexeme)) := do
  let lexemes ← lexFile host req includeComments file
  match format with
  | .text =>
    lexemes.forM fun x => Session.emit (textLine file x)
    pure dumps
  | .json => pure (dumps ++ [(file.name, lexemes)])

/-- Runs the command. -/
def run (host : Host) (req : TokensRequest) (settings : Settings) : Session Unit := do
  if req.input.isEmpty then throw (.validation "No input files specified")
  let eff := req.effective settings
  let format ← Session.lift (OutputFormat.parse eff.format)
  let files ← Session.lift (req.input.mapM (readSource host))
  let dumps ← files.foldlM (req.dumpFile host eff.includeComments format) []
  if format = .json then
    Session.emitJson (Json.pretty 0 (dumpValue dumps))
    Session.emit "\n"

end TokensRequest

end ConfLex
