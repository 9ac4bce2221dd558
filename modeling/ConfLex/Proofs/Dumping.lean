import ConfLex.Proofs.Checking
import ConfLex.Proofs.Tokenize
import ConfLex.Tool.Tokens

/-!
# What a token dump writes

The `tokens` command takes its format and whether comments are dumped from the request, over
the settings. It parses the format and reads every input before it lexes any, so an unknown
format, and then an input that cannot be read, refuses the request with nothing written. It then
lexes the files in order, each with a collector that leaves comments out unless they are dumped
and stops at the request's limit; the first file that fails to lex ends the command with its
error, named by the file.

As text, a file's lexemes are written as soon as it lexes, one line each, so the files before
the failing one stay dumped. As JSON, the dump is written once every file has lexed, as one
array with an entry for each file in order, and nothing is written when one fails. Both come
from one step per file (`TokensRequest.exec_dumpFile_ok`, `TokensRequest.exec_dumpFile_error`)
folded over the files (`TokensRequest.exec_foldlM_dumpFile_ok`,
`TokensRequest.exec_foldlM_dumpFile_error`). The main statement is
`tokens_dump_stops_at_first_failure`.
-/

namespace ConfLex

namespace Session

/-- Writing lines to an open output appends them, in order. -/
theorem exec_forM_emit {α : Type} (xs : List α) (line : α → String) (c : Console)
    (hc : c.closed = false) :
    (xs.forM fun x => emit (line x)).exec c =
      (.ok (), { c with out := c.out ++ String.join (xs.map line) }) := by
  induction xs generalizing c with
  | nil => simp [List.forM]
  | cons x xs ih =>
    show (emit (line x) >>= fun _ => xs.forM fun x => emit (line x)).exec c = _
    rw [exec_emit_bind _ _ _ hc, ih]
    · simp [String.append_assoc]
    · exact hc

end Session

namespace TokensRequest

variable (host : Host) (req : TokensRequest) (includeComments : Bool)

/-- The scan of one file: a collector that leaves comments out unless they are dumped, and stops
at the request's limit. -/
def scan (file : SourceFile) : Run Collector :=
  Lexer.run Collector.listener (Cursor.new file.bytes file.name)
    { limit := req.limit, skipComments := !includeComments }

/-- The lexemes the scan of a file records. -/
def lexemes (file : SourceFile) : List Lexeme :=
  (req.scan includeComments file).state.lexemes.toList

/-- What the error stream gets for a file: the diagnostics of its scan, rendered. -/
def notes (file : SourceFile) : String :=
  diagnosticsText (stderrRenderer host req.noColor) (req.scan includeComments file).cursor.reports
    file

/-- What a file that lexes adds to the output before the end: its lines as text, nothing as
JSON. -/
def written (format : OutputFormat) (file : SourceFile) : String :=
  match format with
  | .text => String.join ((req.lexemes includeComments file).map (textLine file))
  | .json => ""

/-- What a file that lexes adds to the dumps kept for the end: nothing as text, its name and
lexemes as JSON. -/
def kept (format : OutputFormat) (dumps : List (String × List Lexeme)) (file : SourceFile) :
    List (String × List Lexeme) :=
  match format with
  | .text => dumps
  | .json => dumps ++ [(file.name, req.lexemes includeComments file)]

/-! ## One file -/

section File

variable {file : SourceFile} (c : Console)

/-- A file that lexes yields its lexemes, after its diagnostics. -/
theorem exec_lexFile_ok (h : (req.scan includeComments file).result = .ok ()) :
    (lexFile host req includeComments file).exec c =
      (.ok (req.lexemes includeComments file),
        { c with err := c.err ++ req.notes host includeComments file }) := by
  unfold lexFile
  rw [Session.exec_bind, exec_printDiagnostics]
  simp only [scan] at h
  simp only [h]
  rfl

/-- A file that fails to lex ends the command with its error, named by the file, after its
diagnostics. -/
theorem exec_lexFile_error {e : LexError} (h : (req.scan includeComments file).result = .error e) :
    (lexFile host req includeComments file).exec c =
      (.error (.lex file.name e),
        { c with err := c.err ++ req.notes host includeComments file }) := by
  unfold lexFile
  rw [Session.exec_bind, exec_printDiagnostics]
  simp only [scan] at h
  simp only [h]
  rfl

/-- One step of the dump over a file that lexes. -/
theorem exec_dumpFile_ok (format : OutputFormat) (dumps : List (String × List Lexeme))
    (hc : c.closed = false) (h : (req.scan includeComments file).result = .ok ()) :
    (req.dumpFile host includeComments format dumps file).exec c =
      (.ok (req.kept includeComments format dumps file),
        { c with out := c.out ++ req.written includeComments format file,
                 err := c.err ++ req.notes host includeComments file }) := by
  unfold dumpFile
  rw [Session.exec_bind, exec_lexFile_ok host req includeComments c h]
  cases format with
  | text =>
    dsimp only
    rw [Session.exec_bind,
      Session.exec_forM_emit _ _ { c with err := c.err ++ req.notes host includeComments file } hc]
    rfl
  | json => simp [kept, written]

/-- One step of the dump over a file that fails to lex: the command ends with its error. -/
theorem exec_dumpFile_error (format : OutputFormat) (dumps : List (String × List Lexeme))
    {e : LexError} (h : (req.scan includeComments file).result = .error e) :
    (req.dumpFile host includeComments format dumps file).exec c =
      (.error (.lex file.name e),
        { c with err := c.err ++ req.notes host includeComments file }) := by
  unfold dumpFile
  rw [Session.exec_bind, exec_lexFile_error host req includeComments c h]

end File

/-! ## The files in order -/

section Files

variable (format : OutputFormat)

/-- Files that all lex are dumped in order: the output gets what each writes, the error stream
what each reports. -/
theorem exec_foldlM_dumpFile_ok (files : List SourceFile) (dumps : List (String × List Lexeme))
    (c : Console) (hc : c.closed = false)
    (hok : ∀ f ∈ files, (req.scan includeComments f).result = .ok ()) :
    (files.foldlM (req.dumpFile host includeComments format) dumps).exec c =
      (.ok (files.foldl (req.kept includeComments format) dumps),
        { c with out := c.out ++ String.join (files.map (req.written includeComments format)),
                 err := c.err ++ String.join (files.map (req.notes host includeComments)) }) := by
  induction files generalizing dumps c with
  | nil => simp
  | cons f files ih =>
    rw [List.foldlM_cons, Session.exec_bind,
      exec_dumpFile_ok host req includeComments c format dumps hc (hok f List.mem_cons_self)]
    dsimp only
    rw [ih]
    · simp [String.append_assoc]
    · exact hc
    · exact fun g hg => hok g (List.mem_cons_of_mem f hg)

/-- The first file that fails to lex ends the dump: the output keeps what the files before it
wrote, and the error stream gets the diagnostics of those files and of the failing one. -/
theorem exec_foldlM_dumpFile_error (done : List SourceFile) (bad : SourceFile)
    (rest : List SourceFile) (dumps : List (String × List Lexeme)) (c : Console)
    (hc : c.closed = false) (hok : ∀ f ∈ done, (req.scan includeComments f).result = .ok ())
    {e : LexError} (hbad : (req.scan includeComments bad).result = .error e) :
    ((done ++ bad :: rest).foldlM (req.dumpFile host includeComments format) dumps).exec c =
      (.error (.lex bad.name e),
        { c with out := c.out ++ String.join (done.map (req.written includeComments format)),
                 err := c.err ++
                   String.join ((done ++ [bad]).map (req.notes host includeComments)) }) := by
  rw [List.foldlM_append, Session.exec_bind,
    exec_foldlM_dumpFile_ok host req includeComments format done dumps c hc hok]
  dsimp only
  rw [List.foldlM_cons, Session.exec_bind,
    exec_dumpFile_error host req includeComments _ format _ hbad]
  simp [String.append_assoc]

/-- As JSON, every file is kept for the end with its lexemes, in order. -/
theorem foldl_kept_json (files : List SourceFile) (dumps : List (String × List Lexeme)) :
    files.foldl (req.kept includeComments .json) dumps =
      dumps ++ files.map fun f => (f.name, req.lexemes includeComments f) := by
  induction files generalizing dumps with
  | nil => simp
  | cons f files ih => simp [ih, kept]

end Files

/-- As JSON, nothing is written before the end. -/
theorem join_map_written_json (files : List SourceFile) :
    String.join (files.map (req.written includeComments .json)) = "" := by
  induction files with
  | nil => rfl
  | cons f files ih => simp [ih, written]

/-! ## The command -/

section Command

variable (settings : Settings) (c : Console)

/-- An unknown format refuses a request with inputs before any is read, with nothing written. -/
theorem exec_run_of_bad_format (hinput : req.input ≠ []) {e : ToolError}
    (hformat : OutputFormat.parse (req.effective settings).format = .error e) :
    (req.run host settings).exec c = (.error e, c) := by
  have hne : req.input.isEmpty = false := List.isEmpty_eq_false_iff.mpr hinput
  unfold run
  simp only [hne, Bool.false_eq_true, if_false]
  rw [hformat]
  exact Session.exec_lift_error_bind _ _ _

/-- An input that cannot be read refuses a request in a known format before any file is lexed,
with nothing written. -/
theorem exec_run_of_unreadable (hinput : req.input ≠ []) {format : OutputFormat} {e : ToolError}
    (hformat : OutputFormat.parse (req.effective settings).format = .ok format)
    (hread : req.input.mapM (readSource host) = .error e) :
    (req.run host settings).exec c = (.error e, c) := by
  have hne : req.input.isEmpty = false := List.isEmpty_eq_false_iff.mpr hinput
  unfold run
  simp only [hne, Bool.false_eq_true, if_false]
  rw [hformat, Session.exec_lift_ok_bind, hread]
  exact Session.exec_lift_error_bind _ _ _

/-- A request with inputs that all read, in a known format, dumps its files in order and then
writes the JSON dump when the format is JSON. -/
theorem exec_run_of_read (hinput : req.input ≠ []) {format : OutputFormat}
    {files : List SourceFile}
    (hformat : OutputFormat.parse (req.effective settings).format = .ok format)
    (hread : req.input.mapM (readSource host) = .ok files) :
    (req.run host settings).exec c =
      (files.foldlM (req.dumpFile host (req.effective settings).includeComments format) [] >>=
        fun dumps => if format = .json then
          Session.emitJson (Json.pretty 0 (dumpValue dumps)) >>= fun _ => Session.emit "\n"
        else pure ()).exec c := by
  have hne : req.input.isEmpty = false := List.isEmpty_eq_false_iff.mpr hinput
  unfold run
  simp only [hne, Bool.false_eq_true, if_false]
  rw [hformat, Session.exec_lift_ok_bind, hread, Session.exec_lift_ok_bind]

end Command

end TokensRequest

/-- The `tokens` command on a request with inputs. Its format is the request's, else the
settings', and comments are dumped when the settings dump them and the request does not leave
them out. An unknown format, and then an input that cannot be read, refuses the request with its
error and nothing written. Otherwise the inputs are read as files named by them, in order, and
each is scanned with a collector that leaves comments out unless they are dumped and stops at the
request's limit. As text, the files are dumped in order up to the first that fails to lex, one
line for each lexeme recorded: the file's name, the line and column where the lexeme starts, its
kind and its quoted text, separated by tabs; the command then fails with that file's error,
named by the file. As JSON, nothing is written unless every file lexes, and then one array with
an entry for each file in order, holding its name and its lexemes. -/
theorem tokens_dump_stops_at_first_failure (host : Host) (req : TokensRequest)
    (settings : Settings) (console : Console) (hinput : req.input ≠ []) :
    let eff := req.effective settings
    let scan := fun f : SourceFile => Lexer.run Collector.listener (Cursor.new f.bytes f.name)
      { limit := req.limit, skipComments := !eff.includeComments }
    let line := fun (f : SourceFile) (x : Lexeme) =>
      f.name ++ ":" ++ toString (f.positionOf x.span.start).line ++ ":" ++
        toString (f.positionOf x.span.start).column ++ "\t" ++ x.kind.name ++ "\t" ++
        Quoted.text x.text ++ "\n"
    let dump := fun f : SourceFile => String.join ((scan f).state.lexemes.toList.map (line f))
    (eff.format = req.format.getD settings.tokens.format ∧
      eff.includeComments = (settings.tokens.includeComments && !req.noComments)) ∧
    (∀ e, OutputFormat.parse eff.format = .error e →
      (req.run host settings).exec console = (.error e, console)) ∧
    (∀ format e, OutputFormat.parse eff.format = .ok format →
      req.input.mapM (readSource host) = .error e →
      (req.run host settings).exec console = (.error e, console)) ∧
    (console.closed = false → ∀ format files, OutputFormat.parse eff.format = .ok format →
      req.input.mapM (readSource host) = .ok files →
      files.map SourceFile.name = req.input ∧
      ((∀ f ∈ files, (scan f).result = .ok ()) →
        ((req.run host settings).exec console).1 = .ok () ∧
        ((req.run host settings).exec console).2.out = console.out ++
          if format = .text then String.join (files.map dump)
          else Json.pretty 0 (.arr (files.map fun f => .obj [("file", .str f.name),
            ("tokens", .arr ((scan f).state.lexemes.toList.map TokensRequest.lexemeValue))])) ++
            "\n") ∧
      (∀ done bad rest e, files = done ++ bad :: rest →
        (∀ f ∈ done, (scan f).result = .ok ()) → (scan bad).result = .error e →
        ((req.run host settings).exec console).1 = .error (.lex bad.name e) ∧
        ((req.run host settings).exec console).2.out = console.out ++
          if format = .text then String.join (done.map dump) else "")) := by
  intro eff scan line dump
  refine ⟨⟨rfl, rfl⟩,
    fun e hformat => req.exec_run_of_bad_format host settings console hinput hformat,
    fun format e hformat hread =>
      req.exec_run_of_unreadable host settings console hinput hformat hread,
    fun hc format files hformat hread => ?_⟩
  have hrun := req.exec_run_of_read host settings console hinput hformat hread
  have hwritten : req.written eff.includeComments .text = dump := by
    funext f
    have hline : TokensRequest.textLine f = line f := by
      funext x
      simp only [TokensRequest.textLine, line, Position.display, String.append_assoc]
    simp only [TokensRequest.written, TokensRequest.lexemes, hline]
    rfl
  refine ⟨names_of_mapM_readSource host hread, fun hok => ?_,
    fun done bad rest e hfiles hok hbad => ?_⟩
  · rw [hrun, Session.exec_bind,
      TokensRequest.exec_foldlM_dumpFile_ok host req eff.includeComments format files []
        console hc hok]
    cases format with
    | text => simp [hwritten]
    | json =>
      dsimp only
      rw [if_pos rfl, TokensRequest.join_map_written_json, TokensRequest.foldl_kept_json,
        Session.exec_bind, Session.emitJson, Session.exec_write, if_neg (by simpa using hc)]
      dsimp only
      rw [Session.emit, Session.exec_write, if_neg (by simpa using hc)]
      simp [TokensRequest.dumpValue, TokensRequest.lexemes, TokensRequest.scan, scan,
        Function.comp_def, String.append_assoc]
  · subst hfiles
    rw [hrun, Session.exec_bind,
      TokensRequest.exec_foldlM_dumpFile_error host req eff.includeComments format done bad rest []
        console hc hok hbad]
    cases format with
    | text => simp [hwritten]
    | json => simp [TokensRequest.join_map_written_json]

/-- Dumping as text a file that lexes and then one that ends inside a string: the first file's
three lexemes are written, and the command fails with the second file's error. -/
theorem tokens_dump_of_clean_then_broken_file :
    let host : Host := ⟨fun path =>
      if path = "a.cfg" then some (.file (Utf8.encode "x"))
      else if path = "b.cfg" then some (.file (Utf8.encode "\"")) else none,
      fun _ => none, false⟩
    let req : TokensRequest := { input := ["a.cfg", "b.cfg"] }
    ((req.run host {}).exec {}).1 = .error (.lex "b.cfg" ⟨.eofInString, 1, 1⟩) ∧
      ((req.run host {}).exec {}).2.out =
        "a.cfg:1:0\tidentifier\t\"x\"\na.cfg:1:1\teol\t\"\"\na.cfg:1:1\teof\t\"\"\n" := by
  intro host req
  have hread : req.input.mapM (readSource host) =
      .ok [SourceFile.ofString "a.cfg" "x", SourceFile.ofString "b.cfg" "\""] := by
    have ha : readSource host "a.cfg" = .ok (SourceFile.ofString "a.cfg" "x") :=
      readSource_of_text (by simp [host])
    have hb : readSource host "b.cfg" = .ok (SourceFile.ofString "b.cfg" "\"") :=
      readSource_of_text (by simp [host])
    simp only [req, List.mapM_cons, List.mapM_nil, ha, hb]
    rfl
  have hok : (tokenize (Utf8.encode "x") "a.cfg").result = .ok () := by
    rw [tokenize, (Collector.run_collect (Cursor.new (Utf8.encode "x") "a.cfg") {}
      (Collector.tracking_new _ _) (Utf8.valid_encode "x")).2.1, Cursor.rest_new, Cursor.pos_new,
      show (Scan.read (Utf8.encode "x") 0).2 = .done by decide +kernel]
    rfl
  have hbad : (tokenize (Utf8.encode "\"") "b.cfg").result = .error ⟨.eofInString, 1, 1⟩ := by
    rw [tokenize, (Collector.run_collect (Cursor.new (Utf8.encode "\"") "b.cfg") {}
      (Collector.tracking_new _ _) (Utf8.valid_encode "\"")).2.1, Cursor.rest_new, Cursor.pos_new,
      show (Scan.read (Utf8.encode "\"") 0).2 = .fault .eofInString 1 by decide +kernel,
      Ending.result]
    exact congrArg Except.error (by decide +kernel)
  obtain ⟨-, -, -, hrun⟩ := tokens_dump_stops_at_first_failure host req {} {} (by simp [req])
  obtain ⟨-, -, hfail⟩ :=
    hrun rfl .text _ (show OutputFormat.parse "text" = .ok .text by rfl) hread
  obtain ⟨hres, hout⟩ :=
    hfail [SourceFile.ofString "a.cfg" "x"] (SourceFile.ofString "b.cfg" "\"") [] _ rfl
      (fun f hf => by simp only [List.mem_singleton] at hf; subst hf; exact hok) hbad
  refine ⟨hres, ?_⟩
  rw [hout]
  decide +kernel

end ConfLex
