import ConfLex.Source.Span
import ConfLex.Text.Quoted

/-!
# Source files

A source file is a named text together with the index of the offsets at which its lines start:
offset 0, then the offset just past every line feed. A text with `n` line feeds therefore has
`n + 1` lines, the last of which may be empty.

Positions are computed from the index by a search of the sorted line starts: the line of an
offset is the line start equal to it, or else the one before the place where it would be
inserted, and its column is its distance from that start, read from the index. The line found
always has an entry in the index (`SourceFile.lineIndex_lt`), so reading it never fails. A line's
text is read back without the line feeds and carriage returns that end it.
-/

namespace ConfLex

/-- The offsets at which lines start: 0, then one past each line feed of `bytes`. -/
def lineStartsOf (bytes : List UInt8) : List Nat := 0 :: after bytes 0
where
  /-- The starts of the lines that follow line feeds in `bytes`, whose first byte is at
  offset `i`. -/
  after : List UInt8 → Nat → List Nat
    | [], _ => []
    | b :: rest, i => if b = 10 then (i + 1) :: after rest (i + 1) else after rest (i + 1)

/-- What a search of a sorted list reports: the index of an entry equal to the value sought, or,
when there is none, the index at which the value would be inserted to keep the list sorted. -/
inductive Search where
  /-- The value stands at this index. -/
  | found (index : Nat)
  /-- The value is absent, and inserting it at this index keeps the list sorted. -/
  | insertAt (index : Nat)
  deriving DecidableEq, Repr

namespace Search

/-- Searches a sorted list for `x`. In a sorted list the entries below `x` come first, so the
first entry not below `x` stands where `x` is, if it is there, and else where it would be
inserted. -/
def sorted (xs : List Nat) (x : Nat) : Search :=
  let i := xs.findIdx (x ≤ ·)
  if xs[i]? = some x then found i else insertAt i

/-- The index of the entry at or before the value sought: the entry found, or else the one
before the place of insertion, and the first entry when there is none before it. -/
def atOrBefore : Search → Nat
  | found exact => exact
  | insertAt i => i - 1

end Search

/-- Why a piece of a source file could not be taken. -/
inductive SourceError where
  /-- The span's start lies after its stop. -/
  | invalidSpan (start stop : Nat)
  /-- The span reaches past the end of a file of `length` bytes. -/
  | spanOutOfBounds (length start stop : Nat)
  /-- An end of the span lies inside a character. -/
  | notCharBoundary (start stop : Nat)
  /-- The file has no line of that number; it has `lines` lines. -/
  | invalidLineNumber (line lines : Nat)
  deriving DecidableEq, Repr

/-- The text that reports a source error. -/
def SourceError.message : SourceError → String
  | .invalidSpan start stop =>
    "Invalid span: start " ++ toString start ++ " > end " ++ toString stop
  | .spanOutOfBounds length start stop =>
    "Span out of bounds: file has " ++ toString length ++ " bytes, span is " ++
      toString start ++ ".." ++ toString stop
  | .notCharBoundary start stop =>
    "Span " ++ toString start ++ ".." ++ toString stop ++ " is not on character boundaries"
  | .invalidLineNumber line lines =>
    "Invalid line number: " ++ toString line ++ " (file has " ++ toString lines ++ " lines)"

/-- A named text with the index of its line starts. -/
structure SourceFile where
  /-- The name that positions in the file are reported under. -/
  name : String
  /-- The text. -/
  text : String
  /-- The text's UTF-8 bytes. -/
  bytes : List UInt8
  /-- The offsets at which the lines start. -/
  lineStarts : List Nat
  bytes_eq : bytes = Utf8.encode text
  lineStarts_eq : lineStarts = lineStartsOf bytes

namespace SourceFile

/-- The source file of a named text. -/
def ofString (name text : String) : SourceFile :=
  ⟨name, text, Utf8.encode text, lineStartsOf (Utf8.encode text), rfl, rfl⟩

/-- The number of lines, one more than the number of line feeds. -/
def lineCount (f : SourceFile) : Nat := f.lineStarts.length

/-- The offset at which line `line` starts, if the file has that line. -/
def lineStart? (f : SourceFile) (line : Nat) : Option Nat :=
  if line = 0 then none else f.lineStarts[line - 1]?

/-- The index of the entry for the line an offset lies on, found by searching the line starts. -/
def lineIndex (f : SourceFile) (offset : Nat) : Nat := (Search.sorted f.lineStarts offset).atOrBefore

/-- The position of a byte offset, with the start of its line read from the index: the line is
one more than the index of its entry, and the column is the distance from that start. It is
`none` where the index has no entry for the line, so that reading it fails. -/
def positionOf? (f : SourceFile) (offset : Nat) : Option Position :=
  f.lineStarts[f.lineIndex offset]?.map fun start => ⟨f.lineIndex offset + 1, offset - start⟩

/-- The line found for any offset has an entry in the index: the entry found stands in the list,
and the place of insertion is at most the length of the list, which holds the first line's start
at least. -/
theorem lineIndex_lt (f : SourceFile) (offset : Nat) : f.lineIndex offset < f.lineStarts.length := by
  have hne : 0 < f.lineStarts.length := by
    rw [f.lineStarts_eq]
    simp [lineStartsOf]
  unfold lineIndex Search.sorted
  dsimp only
  split
  · next h => exact (List.getElem?_eq_some_iff.mp h).1
  · have hle : f.lineStarts.findIdx (offset ≤ ·) ≤ f.lineStarts.length := List.findIdx_le_length
    simp only [Search.atOrBefore]
    omega

theorem positionOf?_isSome (f : SourceFile) (offset : Nat) : (f.positionOf? offset).isSome := by
  simp [positionOf?, lineIndex_lt]

/-- The position of a byte offset. Reading the start of its line from the index never fails
(`positionOf?_isSome`). -/
def positionOf (f : SourceFile) (offset : Nat) : Position :=
  (f.positionOf? offset).get (f.positionOf?_isSome offset)

/-- The text of line `line` without the line feeds and carriage returns that end it, if the file
has that line. -/
def lineAt? (f : SourceFile) (line : Nat) : Option String := do
  let start ← f.lineStart? line
  let stop := (f.lineStart? (line + 1)).getD f.bytes.length
  let piece ← Utf8.slice? f.bytes start stop
  return Utf8.decode (piece.reverse.dropWhile (fun b => b = 10 || b = 13)).reverse

/-- The text of line `line`, or an error naming the number of lines. -/
def tryLineAt (f : SourceFile) (line : Nat) : Except SourceError String :=
  match f.lineAt? line with
  | some text => .ok text
  | none => .error (.invalidLineNumber line f.lineCount)

/-- The text in a span: an error if the span is reversed, runs past the end, or cuts a
character, checked in that order. -/
def extract (f : SourceFile) (span : Span) : Except SourceError String :=
  if span.stop < span.start then .error (.invalidSpan span.start span.stop)
  else if f.bytes.length < span.stop then
    .error (.spanOutOfBounds f.bytes.length span.start span.stop)
  else match span.slice? f.bytes with
    | some piece => .ok (Utf8.decode piece)
    | none => .error (.notCharBoundary span.start span.stop)

/-- The file shown by its name and number of lines. -/
def debug (f : SourceFile) : String :=
  "SourceFile \x7b name: " ++ Quoted.text f.name ++ ", line_count: " ++ toString f.lineCount ++
    " \x7d"

end SourceFile

end ConfLex
