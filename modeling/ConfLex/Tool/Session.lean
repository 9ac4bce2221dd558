import ConfLex.Tool.Error
import ConfLex.Host.Basic
import ConfLex.Diagnostic.Render

/-!
# Sessions

A command runs in a session: it writes its results to an output, which may refuse every write,
and its diagnostics to the error stream, which never refuses; and it may fail with a
`ToolError`. What was written before a failure stays written, so a session ends with both its
result and its console.

Input files are read as text before anything is done with them: a path that names nothing or
a directory, or a file that is not UTF-8, is an error that names the path.
-/

namespace ConfLex

/-- What a session has written, and whether its output refuses writes. -/
structure Console where
  /-- What was written to the output. -/
  out : String := ""
  /-- What was written to the error stream. -/
  err : String := ""
  /-- Whether every write to the output fails. -/
  closed : Bool := false
  deriving DecidableEq, Repr, Inhabited

/-- A computation that writes to a console and may fail. -/
abbrev Session := ExceptT ToolError (StateM Console)

namespace Session

/-- The result of a session and the console it leaves, from a console to start with. -/
def exec {α : Type} (s : Session α) (console : Console := {}) : Except ToolError α × Console :=
  (ExceptT.run s).run console

/-- Writes text to the output, or fails with `failure` if the output refuses writes. -/
def write (failure : ToolError) (text : String) : Session Unit := do
  let c ← get
  if c.closed then throw failure else set { c with out := c.out ++ text }

/-- Writes text to the output; a refused write is an input/output error. -/
def emit (text : String) : Session Unit := write (.io .outputClosed) text

/-- Writes a JSON text to the output; a refused write is a JSON error. -/
def emitJson (text : String) : Session Unit := write (.json .outputClosed) text

/-- Writes text to the error stream. -/
def note (text : String) : Session Unit := modify fun c => { c with err := c.err ++ text }

/-- The value of a result, or its error. -/
def lift {α : Type} : Except ToolError α → Session α
  | .ok a => pure a
  | .error e => throw e

@[simp] theorem exec_pure {α : Type} (a : α) (c : Console) : (pure a : Session α).exec c = (.ok a, c) :=
  rfl

@[simp] theorem exec_throw {α : Type} (e : ToolError) (c : Console) :
    (throw e : Session α).exec c = (.error e, c) :=
  rfl

theorem exec_bind {α β : Type} (x : Session α) (f : α → Session β) (c : Console) :
    (x >>= f).exec c =
      match x.exec c with
      | (.ok a, c') => (f a).exec c'
      | (.error e, c') => (.error e, c') := by
  simp only [exec, ExceptT.run_bind, StateT.run_bind]
  rcases (ExceptT.run x).run c with ⟨r, c'⟩
  cases r <;> simp <;> rfl

theorem exec_write (failure : ToolError) (text : String) (c : Console) :
    (write failure text).exec c =
      if c.closed then (.error failure, c) else (.ok (), { c with out := c.out ++ text }) := by
  obtain ⟨out, err, closed⟩ := c
  cases closed <;> rfl

@[simp] theorem exec_note (text : String) (c : Console) :
    (note text).exec c = (.ok (), { c with err := c.err ++ text }) :=
  rfl

@[simp] theorem exec_lift {α : Type} (r : Except ToolError α) (c : Console) :
    (lift r).exec c = (r, c) := by
  cases r <;> rfl

end Session

/-- The source file at a path, read as text and named by the path. -/
def readSource (host : Host) (path : String) : Except ToolError SourceFile :=
  match host.stat path with
  | none => throw (.fileOperation ("Input path does not exist: " ++ path))
  | some .directory => throw (.fileOperation ("Input path is not a file: " ++ path))
  | some (.file bytes) =>
    match Utf8.decode? bytes with
    | some text => pure (SourceFile.ofString path text)
    | none => throw (.fileOperation (path ++ ": " ++ IoError.invalidUtf8.message))

/-- The renderer of the error stream: coloured when colour is not turned off and the stream is
a terminal. -/
def stderrRenderer (host : Host) (noColor : Bool) : Renderer :=
  ⟨ColorChoice.useColor (if noColor then .never else .auto) host.stderrIsTerminal⟩

/-- Writes the diagnostics about a file to the error stream, if there are any. Diagnostics about
a file have their columns within their lines, so they always render. -/
def printDiagnostics (r : Renderer) (ds : List Diagnostic) (file : SourceFile) : Session Unit :=
  if ds.isEmpty then pure ()
  else match r.renderAll ds (some file) with
    | some text => Session.note text
    | none => pure ()

end ConfLex
