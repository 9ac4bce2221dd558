/-!
# The host

What the tool sees of the machine it runs on: what a path names, the environment variables, and
whether the error stream is a terminal. A path names a file with its bytes, a directory, or
nothing. The tool reads nothing else, so its runs are functions of a host and its arguments.
-/

namespace ConfLex

/-- What a path names. -/
inductive Entry where
  /-- A file, with its bytes. -/
  | file (bytes : List UInt8)
  /-- A directory. -/
  | directory
  deriving DecidableEq, Repr, Inhabited

/-- What the tool sees of the machine it runs on. -/
structure Host where
  /-- What a path names, if anything. -/
  stat : String → Option Entry
  /-- The value of an environment variable, if it is set. -/
  env : String → Option String
  /-- Whether the error stream is a terminal. -/
  stderrIsTerminal : Bool := false

namespace Host

/-- Whether a path names anything. -/
def exists? (h : Host) (path : String) : Bool := (h.stat path).isSome

/-- Whether a path names a directory. -/
def isDirectory (h : Host) (path : String) : Bool := h.stat path = some .directory

end Host

end ConfLex
