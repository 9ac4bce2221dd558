import ConfLex.Diagnostic.Basic
import ConfLex.Source.File

/-!
# Rendering diagnostics

A diagnostic is rendered as a block of lines: a header `level: message`, an arrow line
`--> stream:line:column`, and, when the source text of that line is at hand, the line itself
between gutter bars with a caret under the reported column. The gutter is as wide as the line
number, and at least two columns.

Columns count bytes, but the caret is placed by characters: it is indented by the number of
characters before the column, or by the column itself when the column does not fall on a
character boundary of the line. With colour on, the level and the caret take the level's colour,
the message is bold and the gutter is bold blue.

A text holds fewer than `2 ^ 63` bytes, so a caret indented by more spaces than that cannot be
drawn, and the block has no rendering; nor has a list of blocks with such a block among them.
A diagnostic about a real file never gets there: its column lies within its line.
-/

namespace ConfLex

/-- Renders diagnostics as text, with or without terminal colours. -/
structure Renderer where
  /-- Whether to colour the output. -/
  color : Bool
  deriving DecidableEq, Repr, Inhabited

namespace Renderer

/-- The escape sequence that ends a colour. -/
def reset : String := "\x1b[0m"

/-- The escape sequence of bold text. -/
def bold : String := "\x1b[1m"

/-- The escape sequence of the gutter: bold blue. -/
def gutter : String := "\x1b[1;34m"

/-- A text in a style, if colour is on. -/
def paint (r : Renderer) (style text : String) : String :=
  if r.color then style ++ text ++ reset else text

/-- A text padded on the left with spaces to `width` characters. -/
def alignRight (width : Nat) (text : String) : String :=
  String.ofList (List.replicate (width - text.length) ' ') ++ text

/-- `n` spaces. -/
def spaces (n : Nat) : String := String.ofList (List.replicate n ' ')

/-- The number of characters of `line` before byte `column`, or `column` when that byte offset
is past the line or inside a character. -/
def caretIndent (line : String) (column : Nat) : Nat :=
  match Utf8.slice? (Utf8.encode line) 0 column with
  | some piece => (Utf8.chars piece).length
  | none => column

/-- The number of bytes that no text reaches. -/
def textLimit : Nat := Nat.pow 2 63

/-- A diagnostic as a block of lines, with its source line if `source` has it; `none` when the
caret would be indented by `textLimit` spaces or more. -/
def render (r : Renderer) (d : Diagnostic) (source : Option SourceFile) : Option String :=
  let position := d.position
  let header := r.paint d.level.ansiColor d.level.name ++ r.paint bold (": " ++ d.message) ++ "\n"
  let width := max (toString position.line).length 2
  let arrow := spaces width ++ r.paint gutter "-->" ++ " " ++ d.stream ++ ":" ++
    position.display ++ "\n"
  match source.bind (·.lineAt? position.line) with
  | none => some (header ++ arrow)
  | some text =>
    let indent := caretIndent text position.column
    if textLimit ≤ indent then none
    else
      let bar := r.paint gutter "|"
      some (header ++ arrow ++ spaces width ++ " " ++ bar ++ "\n" ++
        alignRight width (toString position.line) ++ " " ++ bar ++ " " ++ text ++ "\n" ++
        spaces width ++ " " ++ bar ++ " " ++ spaces indent ++ r.paint d.level.ansiColor "^" ++ "\n")

/-- Diagnostics rendered one after another, a blank line between two blocks; `none` when one of
them has no rendering. -/
def renderAll (r : Renderer) (ds : List Diagnostic) (source : Option SourceFile) :
    Option String := do
  pure ("\n".intercalate (← ds.mapM fun d => r.render d source))

end Renderer

end ConfLex
