import ConfLex.Diagnostic.Basic

/-!
# Handlers

A handler collects the diagnostics reported to it, oldest first. A strict handler refuses every
error: reporting one fails with the message `Diagnostic error: stream:line:column: error: …`,
and the refused diagnostic is not collected. Warnings are always collected.
-/

namespace ConfLex

/-- A collection of reported diagnostics. -/
structure Handler where
  /-- The diagnostics collected so far, oldest first. -/
  diagnostics : List Diagnostic := []
  /-- Whether reporting an error fails instead of collecting it. -/
  strict : Bool := false
  deriving Inhabited

namespace Handler

/-- The failure message of a strict handler that refuses `d`. -/
def refusal (d : Diagnostic) : String := "Diagnostic error: " ++ d.display

/-- Collects a diagnostic, or fails with `refusal d` if the handler is strict and `d` is an
error. -/
def report (h : Handler) (d : Diagnostic) : Except String Handler :=
  if h.strict && d.level.isError then .error (refusal d)
  else .ok { h with diagnostics := h.diagnostics ++ [d] }

/-- Whether an error has been collected. -/
def hasErrors (h : Handler) : Bool := h.diagnostics.any (·.level.isError)

/-- The number of collected diagnostics of a level. -/
def count (h : Handler) (level : Level) : Nat := h.diagnostics.countP (·.level = level)

/-- The collected diagnostics, and the handler emptied of them. -/
def take (h : Handler) : List Diagnostic × Handler := (h.diagnostics, { h with diagnostics := [] })

/-- The handler emptied of its diagnostics. -/
def clear (h : Handler) : Handler := { h with diagnostics := [] }

theorem report_warning (h : Handler) (d : Diagnostic) (hw : d.level = .warning) :
    h.report d = .ok { h with diagnostics := h.diagnostics ++ [d] } := by
  simp [report, hw, Level.isError]

end Handler

end ConfLex
