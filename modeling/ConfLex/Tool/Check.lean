import ConfLex.Tool.Session
import ConfLex.Config.Settings
import ConfLex.Lex.Collector

/-!
# Checking files

The `check` command lexes every input file and reports those that fail. All inputs are read
first. The files are scanned independently of each other on a pool of as many workers as there
are jobs, and the pool collects their reports. The pool belongs to the machine, not to the tool:
it is a parameter of the command. Building it may fail, and the check then fails as a command
that could not run, before anything is written. The thread pool it stands for documents that an
indexed collect keeps the order of the inputs (`WorkerPool.KeepsOrder`), so that the number of
jobs changes nothing but the speed, as long as there is at least one. A check in which some file
fails is itself a failure.

For each file in turn, its diagnostics go to the error stream; a file that lexes is reported as
`file: ok (n tokens)` when verbose, where `n` counts every lexeme, ends of line and of input
included. The command ends with the line `k file(s) ok, m failed`.
-/

namespace ConfLex

/-- A request to check files. -/
structure CheckRequest where
  /-- Whether to report every file that lexes. -/
  verbose : Bool := false
  /-- The paths of the input files. -/
  input : List String := []
  /-- How many files to scan at once, overriding the settings. -/
  jobs : Option Nat := none
  /-- Whether to render diagnostics without colour. -/
  noColor : Bool := false
  deriving DecidableEq, Repr, Inhabited

/-- What lexing one file gave. -/
structure CheckReport where
  /-- The file. -/
  file : SourceFile
  /-- How many lexemes were recorded. -/
  tokens : Nat
  /-- The diagnostics reported. -/
  diagnostics : List Diagnostic
  /-- The lexical error that ended the scan, if any. -/
  error : Option LexError

/-- Lexes a file with nothing left out. -/
def CheckReport.scan (file : SourceFile) : CheckReport :=
  let run := tokenize file.bytes file.name
  { file
    tokens := run.state.lexemes.size
    diagnostics := run.cursor.reports
    error := match run.result with
      | .error e => some e
      | .ok () => none }

/-- How many files lexed and how many failed. -/
structure CheckSummary where
  /-- The number of files that lexed. -/
  processed : Nat
  /-- The number of files that failed. -/
  failed : Nat
  deriving DecidableEq, Repr, Inhabited

/-- Whether no file failed. -/
def CheckSummary.success (s : CheckSummary) : Bool := s.failed == 0

/-- A pool of worker threads: it is built with `jobs` workers, `none` standing for as many
workers as there are processors, maps a function over the files on them and collects the
results. -/
structure WorkerPool where
  /-- The results of the function over the files, as the pool collects them, or the reason why
  the pool could not be built. -/
  collect : Option Nat → (SourceFile → CheckReport) → List SourceFile →
    Except String (List CheckReport)

namespace WorkerPool

/-- The pool is built for any number of workers from one on, and collects the results in the
order of the inputs: what a thread pool of at least one thread and an indexed parallel collect
document. -/
def KeepsOrder (p : WorkerPool) : Prop :=
  ∀ jobs f files, jobs ≠ some 0 → p.collect jobs f files = .ok (files.map f)

/-- The pool that maps over the files in order, as one worker does. -/
def inOrder : WorkerPool := ⟨fun _ f files => .ok (files.map f)⟩

theorem keepsOrder_inOrder : inOrder.KeepsOrder := fun _ _ _ _ => rfl

/-- The message of a pool that could not be built, with the reason. -/
def buildFailure (reason : String) : String := "Failed to create worker pool: " ++ reason

end WorkerPool

namespace CheckRequest

/-- The check settings in force: those of the request over those of the configuration. -/
def effective (req : CheckRequest) (settings : Settings) : CheckSettings :=
  { jobs := req.jobs <|> settings.check.jobs }

/-- Reports one file; the number of failed files so far, updated. -/
def report (req : CheckRequest) (r : Renderer) (failed : Nat) (rep : CheckReport) :
    Session Nat := do
  printDiagnostics r rep.diagnostics rep.file
  match rep.error with
  | some _ => pure (failed + 1)
  | none =>
    if req.verbose then
      Session.emit (rep.file.name ++ ": ok (" ++ toString rep.tokens ++ " tokens)\n")
    pure failed

/-- Runs the command, with the files scanned on `pool`. -/
def run (host : Host) (req : CheckRequest) (settings : Settings)
    (pool : WorkerPool := .inOrder) : Session CheckSummary := do
  if req.input.isEmpty then throw (.validation "No input files specified")
  if (req.effective settings).jobs = some 0 then
    throw (.validation "Number of jobs must be at least 1")
  let files ← Session.lift (req.input.mapM (readSource host))
  let collected := pool.collect (req.effective settings).jobs CheckReport.scan files
  let reports ← Session.lift (collected.mapError fun reason =>
    .commandExecution (WorkerPool.buildFailure reason))
  let failed ← reports.foldlM (req.report (stderrRenderer host req.noColor)) 0
  let summary : CheckSummary := { processed := reports.length - failed, failed }
  Session.emit (toString summary.processed ++ " file(s) ok, " ++ toString failed ++ " failed\n")
  pure summary

/-- Runs the command, and fails with the number of failed files if some file failed. -/
def check (host : Host) (req : CheckRequest) (settings : Settings)
    (pool : WorkerPool := .inOrder) : Session Unit := do
  let summary ← req.run host settings pool
  if !summary.success then throw (.checkFailed summary.failed)

end CheckRequest

end ConfLex
