import ConfLex.Lex.Error

/-!
# Errors of the tool

Every way a run of the tool can fail, with the text that reports it and its structured form.
The report is what a user reads, such as `File operation failed: Input path is not a file: d`;
the structured form names the kind of failure and its fields, such as
`FileOperation("Input path is not a file: d")`, and is what the tool prints when it exits with
an error.

Input and output fail in three ways: a directory was read as a file, bytes that are not UTF-8
were read as text, or the output refused a write.
-/

namespace ConfLex

/-- A failure of input or output. -/
inductive IoError where
  /-- A directory was read as a file. -/
  | isDirectory
  /-- Bytes that are not UTF-8 were read as text. -/
  | invalidUtf8
  /-- The output refused a write. -/
  | outputClosed
  deriving DecidableEq, Repr, Inhabited

namespace IoError

/-- The text that reports the failure. -/
def message : IoError → String
  | .isDirectory => "Is a directory (os error 21)"
  | .invalidUtf8 => "stream did not contain valid UTF-8"
  | .outputClosed => "output closed"

/-- The failure in structured form. -/
def debug : IoError → String
  | .isDirectory => "Os \x7b code: 21, kind: IsADirectory, message: \"Is a directory\" \x7d"
  | .invalidUtf8 =>
    "Error \x7b kind: InvalidData, message: \"stream did not contain valid UTF-8\" \x7d"
  | .outputClosed => "Custom \x7b kind: Other, error: \"output closed\" \x7d"

end IoError

/-- Why a run of the tool failed. -/
inductive ToolError where
  /-- The configuration could not be had. -/
  | config (message : String)
  /-- The configuration file is not a valid document of settings; `detail` says why. -/
  | configSyntax (detail : String)
  /-- An input file could not be read. -/
  | fileOperation (message : String)
  /-- The request is not valid. -/
  | validation (message : String)
  /-- An input file does not lex. -/
  | lex (path : String) (error : LexError)
  /-- This many files did not lex. -/
  | checkFailed (count : Nat)
  /-- The command could not run to completion. -/
  | commandExecution (message : String)
  /-- Input or output failed. -/
  | io (error : IoError)
  /-- Writing JSON failed, because the output did. -/
  | json (error : IoError)
  deriving DecidableEq, Repr, Inhabited

namespace ToolError

/-- The message of a failed configuration file, without the detail. -/
def parseFailure : String := "Failed to parse configuration"

/-- The name of the kind of failure. -/
def name : ToolError → String
  | .config _ | .configSyntax _ => "Config"
  | .fileOperation _ => "FileOperation"
  | .validation _ => "Validation"
  | .lex _ _ => "Lex"
  | .checkFailed _ => "CheckFailed"
  | .commandExecution _ => "CommandExecution"
  | .io _ => "Io"
  | .json _ => "Json"

/-- The text that reports the failure. -/
def message : ToolError → String
  | .config m => "Configuration error: " ++ m
  | .configSyntax d => "Configuration error: " ++ parseFailure ++ ": " ++ d
  | .fileOperation m => "File operation failed: " ++ m
  | .validation m => "Validation error: " ++ m
  | .lex path e => path ++ ": " ++ e.message
  | .checkFailed n => toString n ++ " file(s) failed to lex"
  | .commandExecution m => "Command execution failed: " ++ m
  | .io e => "IO error: " ++ e.message
  | .json e => "JSON error: " ++ e.message

/-- The failure in structured form. -/
def debug : ToolError → String
  | .config m => "Config(" ++ Quoted.text m ++ ")"
  | .configSyntax d => "Config(" ++ Quoted.text (parseFailure ++ ": " ++ d) ++ ")"
  | .fileOperation m => "FileOperation(" ++ Quoted.text m ++ ")"
  | .validation m => "Validation(" ++ Quoted.text m ++ ")"
  | .lex path e => "Lex \x7b path: " ++ Quoted.text path ++ ", source: " ++ e.debug ++ " \x7d"
  | .checkFailed n => "CheckFailed(" ++ toString n ++ ")"
  | .commandExecution m => "CommandExecution(" ++ Quoted.text m ++ ")"
  | .io e => "Io(" ++ e.debug ++ ")"
  | .json e => "Json(Error(" ++ Quoted.text e.message ++ ", line: 0, column: 0))"

end ToolError

end ConfLex
