import ConfLex.Diagnostic.Basic
import ConfLex.Lex.Error

/-!
# Cursors

A cursor walks once over the bytes of a source text. It knows its position, the offsets at which
the lines it has passed start, and the diagnostics it has reported. Advancing over a line feed
records the start of the next line, so the current line is the number of line starts recorded
and the column is the distance from the last of them. At the end of the input advancing does
nothing.

A cursor reports under its name, at its current line and column. Failing reports the error's
message as an error diagnostic and gives back the error at the same place, so every lexical
error comes with its diagnostic.

The cursor keeps the bytes still to be read beside the whole source, so reading a byte takes
constant time; `rest_eq` ties the two together.
-/

namespace ConfLex

/-- A position in a source text, with the line starts passed and the diagnostics reported. -/
structure Cursor where
  /-- The whole text, as UTF-8 bytes. -/
  source : List UInt8
  /-- The name that diagnostics are reported under. -/
  name : String
  /-- The offset of the next byte to read. -/
  pos : Nat
  /-- The bytes from the position to the end. -/
  rest : List UInt8
  /-- The offsets of the starts of the lines passed so far, the first line's 0 first. -/
  lineStarts : Array Nat
  /-- The diagnostics reported so far, oldest first. -/
  reports : List Diagnostic
  rest_eq : rest = source.drop pos

namespace Cursor

/-- A cursor at the start of a text. -/
def new (source : List UInt8) (name : String) : Cursor := ⟨source, name, 0, source, #[0], [], rfl⟩

/-- The byte at the position, if any. -/
def current? (c : Cursor) : Option UInt8 := c.rest.head?

/-- The byte after the one at the position, if any. -/
def peek? (c : Cursor) : Option UInt8 := c.rest.tail.head?

/-- Whether every byte has been read. -/
def atEnd (c : Cursor) : Bool := c.rest.isEmpty

/-- The current line: the number of line starts passed. -/
def line (c : Cursor) : Nat := c.lineStarts.size

/-- The current column: the distance from the start of the current line. -/
def column (c : Cursor) : Nat := c.pos - c.lineStarts.back?.getD 0

/-- The offset at which line `line` starts, if the cursor has passed its start. -/
def lineStart? (c : Cursor) (line : Nat) : Option Nat :=
  if line = 0 then none else c.lineStarts[line - 1]?

/-- The character that starts at the position, if one does. -/
def char? (c : Cursor) : Option Char := Utf8.leadingChar? c.rest

/-- The cursor one byte further; a line feed passed records the start of the next line. At the
end of the input the cursor stays. -/
def advance (c : Cursor) : Cursor :=
  match h : c.rest with
  | [] => c
  | b :: t =>
    { c with
      pos := c.pos + 1
      rest := t
      lineStarts := if b = 10 then c.lineStarts.push (c.pos + 1) else c.lineStarts
      rest_eq := by rw [← List.tail_drop, ← c.rest_eq, h]; rfl }

/-- The cursor `n` bytes further, or at the end. -/
def advanceBy : Nat → Cursor → Cursor
  | 0, c => c
  | n + 1, c => advanceBy n c.advance

/-- The byte at the position, if any, and the cursor past it. -/
def get (c : Cursor) : Option UInt8 × Cursor := (c.current?, c.advance)

/-- The cursor past the longest run of bytes of a class. -/
def readWhile (p : UInt8 → Bool) (c : Cursor) : Cursor := c.advanceBy (c.rest.takeWhile p).length

/-- The cursor with a diagnostic reported at its line and column. -/
def report (level : Level) (message : String) (c : Cursor) : Cursor :=
  { c with reports := c.reports ++ [⟨level, message, c.name, ⟨c.line, c.column⟩⟩] }

/-- The cursor with messages reported in order, each at its level. -/
def reportAll (notes : List (Level × String)) (c : Cursor) : Cursor :=
  notes.foldl (fun c note => c.report note.1 note.2) c

/-- The error of a kind at the cursor's line and column, and the cursor with its message
reported as an error. -/
def fail (kind : LexErrorKind) (c : Cursor) : Cursor × LexError :=
  (c.report .error kind.message, ⟨kind, c.line, c.column⟩)

/-- Advances one byte and gives the byte then at the position; at the end of the input, fails
with `unexpectedEof`. -/
def next (c : Cursor) : Cursor × Except LexError UInt8 :=
  let c := c.advance
  match c.current? with
  | some b => (c, .ok b)
  | none => let (c, e) := c.fail .unexpectedEof; (c, .error e)

/-- The bytes from offset `start` to the position, if `start` is not past the position and both
are character boundaries. -/
def sliceFrom? (c : Cursor) (start : Nat) : Option (List UInt8) := Utf8.slice? c.source start c.pos

/-- The cursor in structured form: its name, position, source length and number of lines. -/
def debug (c : Cursor) : String :=
  "Stream \x7b name: " ++ Quoted.text c.name ++ ", pos: " ++ toString c.pos ++ ", len: " ++
    toString c.source.length ++ ", lines: " ++ toString c.lineStarts.size ++ " \x7d"

section New

variable (source : List UInt8) (name : String)

@[simp] theorem source_new : (new source name).source = source := rfl
@[simp] theorem name_new : (new source name).name = name := rfl
@[simp] theorem pos_new : (new source name).pos = 0 := rfl
@[simp] theorem rest_new : (new source name).rest = source := rfl
@[simp] theorem reports_new : (new source name).reports = [] := rfl

end New

@[simp] theorem rest_advance_cons {c : Cursor} {b : UInt8} {t : List UInt8} (h : c.rest = b :: t) :
    c.advance.rest = t := by
  unfold advance; split <;> simp_all

@[simp] theorem rest_advance (c : Cursor) : c.advance.rest = c.rest.tail := by
  unfold advance; split <;> simp_all

@[simp] theorem rest_advanceBy (n : Nat) (c : Cursor) : (c.advanceBy n).rest = c.rest.drop n := by
  induction n generalizing c with
  | zero => rfl
  | succ n ih => rw [advanceBy, ih, rest_advance, List.drop_tail]

@[simp] theorem rest_report (level : Level) (message : String) (c : Cursor) :
    (c.report level message).rest = c.rest := rfl

@[simp] theorem reportAll_nil (c : Cursor) : c.reportAll [] = c := rfl

@[simp] theorem rest_reportAll (notes : List (Level × String)) (c : Cursor) :
    (c.reportAll notes).rest = c.rest := by
  induction notes generalizing c with
  | nil => rfl
  | cons note notes ih => simp only [reportAll, List.foldl_cons] at ih ⊢; rw [ih]; rfl

@[simp] theorem source_advance (c : Cursor) : c.advance.source = c.source := by
  unfold advance; split <;> simp_all

@[simp] theorem name_advance (c : Cursor) : c.advance.name = c.name := by
  unfold advance; split <;> simp_all

@[simp] theorem reports_advance (c : Cursor) : c.advance.reports = c.reports := by
  unfold advance; split <;> simp_all

theorem pos_advance_cons {c : Cursor} {b : UInt8} {t : List UInt8} (h : c.rest = b :: t) :
    c.advance.pos = c.pos + 1 := by
  unfold advance; split <;> simp_all

/-- The byte at the position is the first byte of the rest. -/
theorem source_getElem?_pos {c : Cursor} {b : UInt8} {t : List UInt8} (h : c.rest = b :: t) :
    c.source[c.pos]? = some b := by
  rw [← Nat.add_zero c.pos, ← List.getElem?_drop, ← c.rest_eq, h]
  rfl

theorem advance_of_rest_nil {c : Cursor} (h : c.rest = []) : c.advance = c := by
  unfold advance; split <;> simp_all

theorem advanceBy_succ (n : Nat) (c : Cursor) : c.advanceBy (n + 1) = c.advance.advanceBy n := rfl

@[simp] theorem advanceBy_one (c : Cursor) : c.advanceBy 1 = c.advance := rfl

@[simp] theorem pos_advanceBy (n : Nat) (c : Cursor) :
    (c.advanceBy n).pos = c.pos + min n c.rest.length := by
  induction n generalizing c with
  | zero => simp [advanceBy]
  | succ n ih =>
    rw [advanceBy_succ, ih]
    cases h : c.rest with
    | nil => simp [advance_of_rest_nil h, h]
    | cons b t =>
      rw [pos_advance_cons h, rest_advance_cons h]
      simp only [List.length_cons]
      omega

@[simp] theorem source_advanceBy (n : Nat) (c : Cursor) : (c.advanceBy n).source = c.source := by
  induction n generalizing c with
  | zero => rfl
  | succ n ih => rw [advanceBy_succ, ih, source_advance]

@[simp] theorem name_advanceBy (n : Nat) (c : Cursor) : (c.advanceBy n).name = c.name := by
  induction n generalizing c with
  | zero => rfl
  | succ n ih => rw [advanceBy_succ, ih, name_advance]

@[simp] theorem reports_advanceBy (n : Nat) (c : Cursor) :
    (c.advanceBy n).reports = c.reports := by
  induction n generalizing c with
  | zero => rfl
  | succ n ih => rw [advanceBy_succ, ih, reports_advance]

theorem advanceBy_add (m n : Nat) (c : Cursor) :
    (c.advanceBy m).advanceBy n = c.advanceBy (m + n) := by
  induction m generalizing c with
  | zero => rw [Nat.zero_add]; rfl
  | succ m ih => rw [advanceBy_succ, ih, Nat.succ_add]; rfl

/-- Moving does not look at the reports. -/
theorem advance_withReports (r : List Diagnostic) (c : Cursor) :
    ({ c with reports := r } : Cursor).advance = { c.advance with reports := r } := by
  obtain ⟨source, name, pos, rest, lineStarts, reports, rest_eq⟩ := c
  cases rest <;> rfl

theorem advanceBy_withReports (r : List Diagnostic) (n : Nat) (c : Cursor) :
    ({ c with reports := r } : Cursor).advanceBy n = { c.advanceBy n with reports := r } := by
  induction n generalizing c with
  | zero => rfl
  | succ n ih => rw [advanceBy_succ, advance_withReports, ih]; rfl

/-- The diagnostic a message of some level becomes when it is reported at the cursor. -/
def diagnostic (c : Cursor) (note : Level × String) : Diagnostic :=
  ⟨note.1, note.2, c.name, ⟨c.line, c.column⟩⟩

/-- Reporting changes only the list of reports: every message is reported at the cursor's own
line and column. -/
theorem reportAll_eq (notes : List (Level × String)) (c : Cursor) :
    c.reportAll notes = { c with reports := c.reports ++ notes.map c.diagnostic } := by
  induction notes generalizing c with
  | nil => simp [reportAll]
  | cons note notes ih =>
    simp only [reportAll, List.foldl_cons] at ih ⊢
    rw [ih]
    simp [report, diagnostic, line, column]

/-- Failing reports the error's message at the cursor, and the error carries the cursor's line
and column. -/
theorem fail_eq (kind : LexErrorKind) (c : Cursor) :
    c.fail kind =
      ({ c with reports := c.reports ++ [c.diagnostic (.error, kind.message)] },
        ⟨kind, c.line, c.column⟩) := rfl

@[simp] theorem pos_reportAll (notes : List (Level × String)) (c : Cursor) :
    (c.reportAll notes).pos = c.pos := by
  rw [reportAll_eq]

@[simp] theorem source_reportAll (notes : List (Level × String)) (c : Cursor) :
    (c.reportAll notes).source = c.source := by
  rw [reportAll_eq]

@[simp] theorem name_reportAll (notes : List (Level × String)) (c : Cursor) :
    (c.reportAll notes).name = c.name := by
  rw [reportAll_eq]

@[simp] theorem line_reportAll (notes : List (Level × String)) (c : Cursor) :
    (c.reportAll notes).line = c.line := by
  rw [reportAll_eq]; rfl

@[simp] theorem column_reportAll (notes : List (Level × String)) (c : Cursor) :
    (c.reportAll notes).column = c.column := by
  rw [reportAll_eq]; rfl

@[simp] theorem reports_reportAll (notes : List (Level × String)) (c : Cursor) :
    (c.reportAll notes).reports = c.reports ++ notes.map c.diagnostic := by
  rw [reportAll_eq]

end Cursor

end ConfLex
