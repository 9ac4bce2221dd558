import ConfLex.Config.Settings
import ConfLex.Toml.Document
import ConfLex.Host.Basic
import ConfLex.Tool.Error
import ConfLex.Text.Utf8

/-!
# Loading the settings

The settings come from a TOML configuration file named `cfgt.toml`, or are the defaults when
there is none. A file named on the command line must exist. Otherwise the first of these that
exists is used:

1. `cfgt.toml` in the working directory;
2. `.config/cfgt/cfgt.toml` in the home directory;
3. `cfgt/cfgt.toml` in the configuration directory, which is `XDG_CONFIG_HOME` when that is an
   absolute path and `.config` in the home directory otherwise.

The home directory is the value of `HOME` when it is set and not empty. A file that exists but
cannot be read as text, or whose text is not a document of settings, is an error; a path that
names a directory exists, and fails when it is read.
-/

namespace ConfLex.Settings

/-- The name of the configuration file. -/
def fileName : String := "cfgt.toml"

/-- Settings read from the configuration file at `path`. -/
def loadFrom (host : Host) (path : String) : Except ToolError Settings :=
  match host.stat path with
  | none => throw (.config ("Configuration file not found: " ++ path))
  | some .directory => throw (.io .isDirectory)
  | some (.file bytes) =>
    match Utf8.decode? bytes with
    | none => throw (.io .invalidUtf8)
    | some text =>
      match Toml.parse text >>= Settings.ofDatum false with
      | .ok s => pure s
      | .error detail => throw (.configSyntax detail)

/-- The home directory: the value of `HOME` when it is set and not empty. -/
def homeDir (host : Host) : Option String :=
  match host.env "HOME" with
  | some home => if home.isEmpty then none else some home
  | none => none

/-- The configuration directory: `XDG_CONFIG_HOME` when it is an absolute path, and `.config`
in the home directory otherwise. -/
def configDir (host : Host) : Option String :=
  match host.env "XDG_CONFIG_HOME" with
  | some dir => if dir.toList.head? = some '/' then some dir else fallback
  | none => fallback
where
  /-- `.config` in the home directory. -/
  fallback : Option String := (homeDir host).map (· ++ "/.config")

/-- The places searched for a configuration file, in order. -/
def candidates (host : Host) : List String :=
  [fileName] ++ ((homeDir host).map (· ++ "/.config/cfgt/" ++ fileName)).toList ++
    ((configDir host).map (· ++ "/cfgt/" ++ fileName)).toList

/-- The configuration file found by the search, if any. -/
def search (host : Host) : Option String := (candidates host).find? host.exists?

/-- The settings of the file found by the search, or the defaults when there is none. -/
def load (host : Host) : Except ToolError Settings :=
  match search host with
  | some path => loadFrom host path
  | none => pure {}

/-- The settings of the named file, or those found by the search when none is named. -/
def loadOption (host : Host) : Option String → Except ToolError Settings
  | some path => loadFrom host path
  | none => load host

end ConfLex.Settings
