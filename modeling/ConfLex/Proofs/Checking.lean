import ConfLex.Tool.Cli
import ConfLex.Proofs.Encoding

/-!
# What a check reports

The `check` command refuses a request before it scans anything: with no input, with no job to
run on, or when an input cannot be read as text, in that order, and it writes nothing then.
Otherwise it scans every file on a pool of workers and goes through the reports in order. A pool
that keeps the order of the inputs makes the run a function of the files alone: the number of
jobs plays no part in it as long as there is at least one (`check_reports_files_in_order`).

The run writes to two places. Its output gets one line for every file that lexes, when verbose,
and a closing count of the files that lexed and failed; its error stream gets the diagnostics of
every file, file after file. Each report does both for its file (`CheckRequest.exec_report`),
and the reports are folded in order (`CheckRequest.exec_foldlM_report`).
-/

namespace ConfLex

/-! ## Sessions -/

namespace Session

theorem exec_throw_bind {α β : Type} (e : ToolError) (f : α → Session β) (c : Console) :
    (throw e >>= f).exec c = (.error e, c) :=
  rfl

theorem exec_pure_bind {α β : Type} (a : α) (f : α → Session β) (c : Console) :
    (pure a >>= f).exec c = (f a).exec c :=
  rfl

theorem exec_lift_ok_bind {α β : Type} (a : α) (f : α → Session β) (c : Console) :
    (lift (.ok a) >>= f).exec c = (f a).exec c :=
  rfl

theorem exec_lift_error_bind {α β : Type} (e : ToolError) (f : α → Session β) (c : Console) :
    (lift (.error e) >>= f).exec c = (.error e, c) :=
  rfl

theorem exec_lift_mapError_ok_bind {ε α β : Type} (g : ε → ToolError) (a : α)
    (f : α → Session β) (c : Console) :
    (lift ((Except.ok a : Except ε α).mapError g) >>= f).exec c = (f a).exec c :=
  rfl

theorem exec_lift_mapError_error_bind {ε α β : Type} (g : ε → ToolError) (e : ε)
    (f : α → Session β) (c : Console) :
    (lift ((Except.error e : Except ε α).mapError g) >>= f).exec c = (.error (g e), c) :=
  rfl

/-- Writing to an open output appends to it. -/
theorem exec_emit_bind {β : Type} (text : String) (f : Unit → Session β) (c : Console)
    (hc : c.closed = false) :
    (emit text >>= f).exec c = (f ()).exec { c with out := c.out ++ text } := by
  rw [exec_bind, emit, exec_write, if_neg (by simp [hc])]

end Session

/-! ## Reading the inputs -/

/-- Every input that cannot be read is refused as a file operation. -/
theorem readSource_error {host : Host} {path : String} {e : ToolError}
    (h : readSource host path = .error e) : ∃ m, e = .fileOperation m := by
  unfold readSource at h
  split at h
  · exact ⟨_, (Except.error.inj h).symm⟩
  · exact ⟨_, (Except.error.inj h).symm⟩
  · split at h
    · cases h
    · exact ⟨_, (Except.error.inj h).symm⟩

/-- An input that reads is named by its path. -/
theorem name_of_readSource {host : Host} {path : String} {f : SourceFile}
    (h : readSource host path = .ok f) : f.name = path := by
  unfold readSource at h
  split at h
  · cases h
  · cases h
  · split at h
    · cases h
      rfl
    · cases h

/-- When some input cannot be read, reading them all is refused as a file operation. -/
theorem mapM_readSource_error (host : Host) {paths : List String}
    (h : ∃ path ∈ paths, ∃ e, readSource host path = .error e) :
    ∃ m, paths.mapM (readSource host) = .error (.fileOperation m) := by
  induction paths with
  | nil => simp at h
  | cons path paths ih =>
    rw [List.mapM_cons]
    cases hp : readSource host path with
    | error e =>
      obtain ⟨m, rfl⟩ := readSource_error hp
      exact ⟨m, rfl⟩
    | ok f =>
      obtain ⟨q, hq, e, he⟩ := h
      rcases List.mem_cons.mp hq with rfl | hq
      · rw [hp] at he
        cases he
      · obtain ⟨m, hm⟩ := ih ⟨q, hq, e, he⟩
        exact ⟨m, by simp [hm, bind, Except.bind]⟩

/-- A path that names a file holding the UTF-8 bytes of a text reads as that text, named by the
path. -/
theorem readSource_of_text {host : Host} {path text : String}
    (h : host.stat path = some (.file (Utf8.encode text))) :
    readSource host path = .ok (SourceFile.ofString path text) := by
  rw [readSource, h]
  simp only [Utf8.decode?_encode]
  rfl

/-- The files read from the inputs are named by them, in order. -/
theorem names_of_mapM_readSource (host : Host) {paths : List String} {files : List SourceFile}
    (h : paths.mapM (readSource host) = .ok files) : files.map SourceFile.name = paths := by
  induction paths generalizing files with
  | nil =>
    cases h
    rfl
  | cons path paths ih =>
    rw [List.mapM_cons] at h
    cases hp : readSource host path with
    | error e => simp [hp, bind, Except.bind] at h
    | ok f =>
      cases hr : paths.mapM (readSource host) with
      | error e => simp [hp, hr, bind, Except.bind] at h
      | ok fs =>
        simp only [hp, hr, bind, Except.bind, pure, Except.pure, Except.ok.injEq] at h
        subst h
        rw [List.map_cons, name_of_readSource hp, ih hr]

/-! ## Reporting the files -/

/-- What printing diagnostics about a file writes to the error stream. -/
def diagnosticsText (r : Renderer) (ds : List Diagnostic) (file : SourceFile) : String :=
  ((printDiagnostics r ds file).exec {}).2.err

/-- Printing diagnostics appends their text to the error stream, and touches nothing else. -/
theorem exec_printDiagnostics (r : Renderer) (ds : List Diagnostic) (file : SourceFile)
    (c : Console) :
    (printDiagnostics r ds file).exec c =
      (.ok (), { c with err := c.err ++ diagnosticsText r ds file }) := by
  unfold diagnosticsText printDiagnostics
  split
  · simp
  · split <;> simp [Session.exec_note]

namespace CheckRequest

/-- The line the output gets for a report: for a file that lexes, when verbose, its name and
number of lexemes. -/
def okLine (req : CheckRequest) (rep : CheckReport) : String :=
  if req.verbose && rep.error.isNone then
    rep.file.name ++ ": ok (" ++ toString rep.tokens ++ " tokens)\n"
  else ""

/-- One report: the file's diagnostics go to the error stream, its line to the output, and the
count of failed files goes up by one if it failed. -/
theorem exec_report (req : CheckRequest) (r : Renderer) (n : Nat) (rep : CheckReport)
    (c : Console) (hc : c.closed = false) :
    (req.report r n rep).exec c =
      (.ok (if rep.error.isSome then n + 1 else n),
        { c with out := c.out ++ req.okLine rep,
                 err := c.err ++ diagnosticsText r rep.diagnostics rep.file }) := by
  unfold report
  rw [Session.exec_bind, exec_printDiagnostics]
  dsimp only
  cases he : rep.error with
  | some e => simp [okLine, he]
  | none =>
    cases hv : req.verbose with
    | false => simp [okLine, he, hv]
    | true =>
      dsimp only
      rw [if_pos rfl, Session.exec_emit_bind]
      · simp [okLine, he, hv]
      · exact hc

/-- The reports in order: the count of failed files goes up by those that failed, the output
gets their lines and the error stream their diagnostics, report after report. -/
theorem exec_foldlM_report (req : CheckRequest) (r : Renderer) (reports : List CheckReport)
    (n : Nat) (c : Console) (hc : c.closed = false) :
    (reports.foldlM (req.report r) n).exec c =
      (.ok (n + reports.countP (·.error.isSome)),
        { c with out := c.out ++ String.join (reports.map req.okLine),
                 err := c.err ++ String.join (reports.map fun rep =>
                   diagnosticsText r rep.diagnostics rep.file) }) := by
  induction reports generalizing n c with
  | nil => simp
  | cons rep reports ih =>
    rw [List.foldlM_cons, Session.exec_bind, exec_report req r n rep c hc]
    dsimp only
    have hc' : ({ c with
        out := c.out ++ req.okLine rep
        err := c.err ++ diagnosticsText r rep.diagnostics rep.file } : Console).closed = false := hc
    rw [ih _ _ hc']
    cases he : rep.error.isSome <;>
      simp [he, String.append_assoc, Nat.add_assoc, Nat.add_comm 1]

/-- A request with inputs that all read and a job to run on scans the files that the pool
collects and reports them in that order, then writes the count of those that lexed and failed. -/
theorem exec_run_of_read (host : Host) (req : CheckRequest) (settings : Settings)
    (pool : WorkerPool) {files : List SourceFile} {reports : List CheckReport} (c : Console)
    (hinput : req.input ≠ []) (hjobs : (req.effective settings).jobs ≠ some 0)
    (hread : req.input.mapM (readSource host) = .ok files)
    (hcollect : pool.collect (req.effective settings).jobs CheckReport.scan files = .ok reports)
    (hc : c.closed = false) :
    (req.run host settings pool).exec c =
      let failed := reports.countP (·.error.isSome)
      (.ok ⟨reports.length - failed, failed⟩,
        { c with
          out := c.out ++ String.join (reports.map req.okLine) ++
            (toString (reports.length - failed) ++ " file(s) ok, " ++ toString failed ++
              " failed\n")
          err := c.err ++ String.join (reports.map fun rep =>
            diagnosticsText (stderrRenderer host req.noColor) rep.diagnostics rep.file) }) := by
  have hne : req.input.isEmpty = false := List.isEmpty_eq_false_iff.mpr hinput
  unfold CheckRequest.run
  simp only [hne, Bool.false_eq_true, if_false, hjobs]
  rw [hread, Session.exec_lift_ok_bind, hcollect, Session.exec_lift_mapError_ok_bind,
    Session.exec_bind, exec_foldlM_report _ _ _ 0 c hc]
  dsimp only
  rw [Session.exec_emit_bind]
  · simp [String.append_assoc]
  · exact hc

/-- A pool that cannot be built fails the check as a command that could not run, with the pool's
reason, before anything is written. -/
theorem exec_run_of_pool_failure (host : Host) (req : CheckRequest) (settings : Settings)
    (pool : WorkerPool) {files : List SourceFile} {reason : String} (c : Console)
    (hinput : req.input ≠ []) (hjobs : (req.effective settings).jobs ≠ some 0)
    (hread : req.input.mapM (readSource host) = .ok files)
    (hcollect : pool.collect (req.effective settings).jobs CheckReport.scan files = .error reason) :
    (req.run host settings pool).exec c =
      (.error (.commandExecution (WorkerPool.buildFailure reason)), c) := by
  have hne : req.input.isEmpty = false := List.isEmpty_eq_false_iff.mpr hinput
  unfold CheckRequest.run
  simp only [hne, Bool.false_eq_true, if_false, hjobs]
  rw [hread, Session.exec_lift_ok_bind, hcollect]
  exact Session.exec_lift_mapError_error_bind _ _ _ _

end CheckRequest

/-! ## Files that lex -/

namespace SourceFile

/-- Whether a file lexes. -/
def lexes (f : SourceFile) : Bool := (tokenize f.bytes f.name).result.toBool

/-- The line that reports a file that lexes: its name and the number of lexemes that `tokenize`
records, ends of line and of input included. -/
def okLine (f : SourceFile) : String :=
  f.name ++ ": ok (" ++ toString (tokenize f.bytes f.name).state.lexemes.size ++ " tokens)\n"

end SourceFile

namespace CheckReport

@[simp] theorem file_scan (f : SourceFile) : (scan f).file = f := rfl

@[simp] theorem diagnostics_scan (f : SourceFile) :
    (scan f).diagnostics = (tokenize f.bytes f.name).cursor.reports := rfl

/-- A scan fails exactly when the file does not lex. -/
theorem error_isSome_scan (f : SourceFile) : (scan f).error.isSome = !f.lexes := by
  dsimp only [scan, SourceFile.lexes]
  cases (tokenize f.bytes f.name).result with
  | ok u => rfl
  | error e => rfl

/-- A scan's line is the file's line, for a file that lexes, when verbose. -/
theorem okLine_scan (req : CheckRequest) (f : SourceFile) :
    req.okLine (scan f) = if req.verbose && f.lexes then f.okLine else "" := by
  rw [CheckRequest.okLine, ← Option.not_isSome, error_isSome_scan, Bool.not_not]
  rfl

end CheckReport

/-! ## The run of a check -/

/-- A check refuses a request with no input, then one with no job to run on, then one with an
input that does not read as text, as a file operation; a refused request writes nothing. A
request that passes, on a pool that keeps the order of the inputs, has its files named by its
inputs in order. The output gets, for every file in turn, a line with its name and number of
lexemes when verbose and the file lexes, then the number of files that lexed and failed; the
error stream gets the diagnostics of every file in turn. The check fails with the number of files
that failed exactly when some did. None of this depends on the number of jobs. -/
theorem check_reports_files_in_order (host : Host) (req : CheckRequest) (settings : Settings)
    (pool : WorkerPool) (console : Console) :
    (req.input = [] →
      (req.run host settings pool).exec console =
        (.error (.validation "No input files specified"), console)) ∧
    (req.input ≠ [] → (req.effective settings).jobs = some 0 →
      (req.run host settings pool).exec console =
        (.error (.validation "Number of jobs must be at least 1"), console)) ∧
    (req.input ≠ [] → (req.effective settings).jobs ≠ some 0 →
      (∃ path ∈ req.input, ∃ e, readSource host path = .error e) →
      ∃ m, (req.run host settings pool).exec console = (.error (.fileOperation m), console)) ∧
    (pool.KeepsOrder → req.input ≠ [] → (req.effective settings).jobs ≠ some 0 →
      console.closed = false → ∀ files, req.input.mapM (readSource host) = .ok files →
      let failed := files.countP fun f => !f.lexes
      files.map SourceFile.name = req.input ∧
      (req.run host settings pool).exec console =
        (.ok ⟨files.length - failed, failed⟩,
          { console with
            out := console.out ++
              String.join (files.map fun f => if req.verbose && f.lexes then f.okLine else "") ++
              (toString (files.length - failed) ++ " file(s) ok, " ++ toString failed ++
                " failed\n")
            err := console.err ++ String.join (files.map fun f =>
              diagnosticsText (stderrRenderer host req.noColor) (tokenize f.bytes f.name).cursor.reports
                f) }) ∧
      ((req.check host settings pool).exec console).1 =
        if 0 < failed then .error (.checkFailed failed) else .ok ()) := by
  refine ⟨fun hnil => ?_, fun hinput hzero => ?_, fun hinput hjobs hbad => ?_,
    fun hpool hinput hjobs hc files hread => ?_⟩
  · unfold CheckRequest.run
    simp only [hnil, List.isEmpty_nil, if_true]
    exact Session.exec_throw_bind _ _ _
  · have hne : req.input.isEmpty = false := List.isEmpty_eq_false_iff.mpr hinput
    unfold CheckRequest.run
    simp only [hne, Bool.false_eq_true, if_false, hzero, if_true]
    exact Session.exec_throw_bind _ _ _
  · have hne : req.input.isEmpty = false := List.isEmpty_eq_false_iff.mpr hinput
    obtain ⟨m, hm⟩ := mapM_readSource_error host hbad
    refine ⟨m, ?_⟩
    unfold CheckRequest.run
    simp only [hne, Bool.false_eq_true, if_false, hjobs]
    rw [hm]
    exact Session.exec_lift_error_bind _ _ _
  · intro failed
    have hrun := CheckRequest.exec_run_of_read host req settings pool console hinput hjobs hread
      (hpool _ _ _ hjobs) hc
    have hfailed : (files.map CheckReport.scan).countP (·.error.isSome) = failed := by
      rw [List.countP_map]
      exact List.countP_congr fun f _ => by simp [CheckReport.error_isSome_scan]
    simp only [hfailed, List.length_map, List.map_map] at hrun
    have hrun' : (req.run host settings pool).exec console =
        (.ok ⟨files.length - failed, failed⟩,
          { console with
            out := console.out ++
              String.join (files.map fun f => if req.verbose && f.lexes then f.okLine else "") ++
              (toString (files.length - failed) ++ " file(s) ok, " ++ toString failed ++
                " failed\n")
            err := console.err ++ String.join (files.map fun f =>
              diagnosticsText (stderrRenderer host req.noColor) (tokenize f.bytes f.name).cursor.reports
                f) }) := by
      rw [hrun]
      simp [Function.comp_def, CheckReport.okLine_scan]
    refine ⟨names_of_mapM_readSource host hread, hrun', ?_⟩
    unfold CheckRequest.check
    rw [Session.exec_bind, hrun']
    dsimp only
    by_cases h0 : 0 < failed
    · simp [CheckSummary.success, h0, Nat.pos_iff_ne_zero.mp h0]
    · have : failed = 0 := Nat.eq_zero_of_not_pos h0
      simp [CheckSummary.success, this]

/-- Checking a file that lexes and one that does not, on two jobs: one file lexed and one failed,
and the check fails with one failed file. -/
theorem check_counts_one_clean_and_one_broken_file :
    let host : Host := ⟨fun path =>
      if path = "a.cfg" then some (.file (Utf8.encode "x = 1\n"))
      else if path = "b.cfg" then some (.file (Utf8.encode "x = 0x\n")) else none,
      fun _ => none, false⟩
    let req : CheckRequest := { verbose := true, input := ["a.cfg", "b.cfg"], jobs := some 2 }
    ((req.run host {} .inOrder).exec {}).1 = .ok ⟨1, 1⟩ ∧
      ((req.check host {} .inOrder).exec {}).1 = .error (.checkFailed 1) := by
  intro host req
  have hread : req.input.mapM (readSource host) =
      .ok [SourceFile.ofString "a.cfg" "x = 1\n", SourceFile.ofString "b.cfg" "x = 0x\n"] := by
    have ha : readSource host "a.cfg" = .ok (SourceFile.ofString "a.cfg" "x = 1\n") :=
      readSource_of_text (by simp [host])
    have hb : readSource host "b.cfg" = .ok (SourceFile.ofString "b.cfg" "x = 0x\n") :=
      readSource_of_text (by simp [host])
    simp only [req, List.mapM_cons, List.mapM_nil, ha, hb]
    rfl
  obtain ⟨-, hrun, hcheck⟩ := (check_reports_files_in_order host req {} .inOrder {}).2.2.2
    WorkerPool.keepsOrder_inOrder (by decide) (by decide) rfl _ hread
  have hfailed : [SourceFile.ofString "a.cfg" "x = 1\n",
      SourceFile.ofString "b.cfg" "x = 0x\n"].countP (fun f => !f.lexes) = 1 := by
    decide +kernel
  rw [hfailed] at hrun hcheck
  exact ⟨by rw [hrun]; rfl, by rw [hcheck, if_pos Nat.one_pos]⟩

end ConfLex
