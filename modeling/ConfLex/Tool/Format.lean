import ConfLex.Tool.Error

/-!
# Output formats

Tokens are dumped as text, one per line, or as one JSON document. A format is named `text` or
`txt` for text and `json` for JSON, in any mix of upper and lower case. Letters are compared
after lowering ASCII letters: no other character lowers to a letter of these names, so this is
the same as lowering all of Unicode.
-/

namespace ConfLex

/-- How tokens are dumped. -/
inductive OutputFormat where
  /-- One token per line. -/
  | text
  /-- One JSON document. -/
  | json
  deriving DecidableEq, Repr, Inhabited

namespace OutputFormat

/-- The format's name in structured form. -/
def name : OutputFormat → String
  | .text => "Text"
  | .json => "Json"

/-- The format named by a text. -/
def parse (s : String) : Except ToolError OutputFormat :=
  match String.ofList (s.toList.map Char.toLower) with
  | "text" | "txt" => .ok .text
  | "json" => .ok .json
  | _ => .error (.validation ("Unknown format: " ++ s))

example : parse "JSON" = .ok .json := by rfl

end OutputFormat

end ConfLex
