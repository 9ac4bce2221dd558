import ConfLex.Host.Basic

/-!
# A machine with a finite file tree

A machine holds finitely many files and directories under absolute paths, a working directory
and an environment. Every proper prefix of a listed path is a directory, and so are the working
directory, the directories above it and the root.

A path is resolved as the operating system resolves it. A relative path starts at the working
directory. Its components are taken in turn, where each one before the last must name a
directory: an empty component and `.` stay in place, `..` goes to the parent directory (the
root is its own parent), and a name goes into the entry of that name, which must exist. So
`missing/../a` names nothing, and neither does `file/` when `file` is a file. The empty path
names nothing.

A file or directory is added the way a file is written after making its parent directories:
every directory met along the path is made on the way, so adding `d/../a` makes the directory
`d` and puts `a` in the working directory. A file added where one is listed replaces it; a
directory added where anything is listed changes nothing.
-/

namespace ConfLex

/-- Finitely many files and directories, a working directory and an environment. -/
structure Machine where
  /-- The files and directories, by absolute path as a list of components. -/
  entries : List (List String × Entry) := []
  /-- The working directory, as a list of components. -/
  cwd : List String := []
  /-- The environment variables; the first binding of a name is its value. -/
  env : List (String × String) := []
  /-- Whether the error stream is a terminal. -/
  stderrIsTerminal : Bool := false

namespace Machine

/-- What the absolute path `path` names: a listed entry, a directory above one, or the working
directory or one above it, the root included. -/
def entryAt (m : Machine) (path : List String) : Option Entry :=
  match m.entries.find? (·.1 = path) with
  | some (_, e) => some e
  | none =>
    if path.isPrefixOf m.cwd || m.entries.any (path.isPrefixOf ·.1) then some .directory
    else none

/-- The absolute path reached from directory `dir` by the components `parts`, if every step
is possible. -/
def walk (m : Machine) (dir : List String) : List String → Option (List String)
  | [] => some dir
  | part :: rest =>
    if part = "" || part = "." then walk m dir rest
    else if part = ".." then walk m dir.dropLast rest
    else
      let next := dir ++ [part]
      match m.entryAt next with
      | none => none
      | some .directory => walk m next rest
      | some (.file _) => if rest.isEmpty then some next else none

/-- The pieces of a path between its slashes, the characters of the current piece so far given
in reverse. -/
def pieces : List Char → List Char → List String
  | [], piece => [String.ofList piece.reverse]
  | '/' :: rest, piece => String.ofList piece.reverse :: pieces rest []
  | c :: rest, piece => pieces rest (c :: piece)

/-- The components of a path: the pieces between its slashes, empty ones included. -/
def components (path : String) : List String := pieces path.toList []

/-- The absolute path that a path resolves to, if it names anything. -/
def resolve (m : Machine) (path : String) : Option (List String) :=
  match path.toList with
  | [] => none
  | '/' :: _ => m.walk [] (components path)
  | _ => m.walk m.cwd (components path)

/-- What a path names. -/
def stat (m : Machine) (path : String) : Option Entry := (m.resolve path).bind m.entryAt

/-- Where the components `parts` lead from directory `dir` when every directory along them is
made on the way: the directories met before the last component, and the place reached. -/
def lay (dir : List String) : List String → List (List String) × List String
  | [] => ([], dir)
  | part :: rest =>
    let next :=
      if part = "" || part = "." then dir
      else if part = ".." then dir.dropLast
      else dir ++ [part]
    let (made, last) := lay next rest
    (if rest.isEmpty then made else next :: made, last)

/-- The machine with a directory at an absolute path, unless something is there already. -/
def makeDirectory (m : Machine) (path : List String) : Machine :=
  if (m.entryAt path).isSome then m else { m with entries := m.entries ++ [(path, .directory)] }

/-- The machine with a file added under a path relative to the working directory, after making
the directories along the path. -/
def addFile (m : Machine) (path : String) (bytes : List UInt8) : Machine :=
  let (made, last) := lay m.cwd (components path)
  let m := made.foldl makeDirectory m
  { m with entries := m.entries.filter (·.1 ≠ last) ++ [(last, .file bytes)] }

/-- The machine with a directory added under a path relative to the working directory, after
making the directories along the path. -/
def addDirectory (m : Machine) (path : String) : Machine :=
  let (made, last) := lay m.cwd (components path)
  makeDirectory (made.foldl makeDirectory m) last

example : (({ cwd := ["w"] } : Machine).addFile "d/../a" []).stat "a" = some (.file []) ∧
    (({ cwd := ["w"] } : Machine).addFile "d/../a" []).stat "d" = some .directory := by
  decide +kernel

/-- The machine as the tool sees it. -/
def host (m : Machine) : Host where
  stat := m.stat
  env name := m.env.lookup name
  stderrIsTerminal := m.stderrIsTerminal

example : ({ cwd := ["w"], entries := [(["w", "a"], .file [])] } : Machine).stat "a/" = none := by
  decide +kernel

example : ({ cwd := ["w"] } : Machine).stat ".//./" = some .directory := by
  decide +kernel

example : ({ cwd := ["w"], entries := [(["w", "d", "a"], .file [])] } : Machine).stat "d/./a" =
    some (.file []) := by
  decide +kernel

end Machine

end ConfLex
