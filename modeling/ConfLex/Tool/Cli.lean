import ConfLex.Tool.Tokens
import ConfLex.Tool.Check
import ConfLex.Config.Load

/-!
# The command line

`cfgt [-v|--verbose] [-c|--config PATH] [--no-color] COMMAND ...` runs one of two commands:

* `tokens INPUT... [-F|--format FORMAT] [--no-comments] [--limit N]` dumps tokens;
* `check INPUT... [-j|--jobs N]` checks files.

The three global options may also follow the command, so the command line has two levels: the
arguments before the command and those after it. A global option given at both levels takes its
value from the later one. When it is given at neither, the environment gives it: `CFGT_VERBOSE`
and `CFGT_NO_COLOR` hold `true` or `false`, and `CFGT_CONFIG` a path; the environment is read at
each level that does not give the option, so a value there that is not valid is refused unless
both levels give it.

An option's value follows it as the next argument, after `=` (`--format=json`), or, for a short
option, right after its letter (`-Fjson`); short flags may share one dash (`-vF json`). No option
may be given twice at one level. After `--` every argument is an input. A path may not be empty.
A number is decimal with an optional sign: `--limit` takes a 64-bit unsigned number, which may
not be negative, and `--jobs` a signed 64-bit number that must lie in the 32-bit unsigned range,
so `-0` is `0`.

A run loads the settings (from the named file, or by searching), turns verbose on if either the
command line or the settings ask for it, and runs the command. A check in which some file fails
is itself a failure. A failed run writes `Error: ` and the structured form of its error to the
error stream and exits with status 1; a command line that cannot be understood exits with
status 2 after a usage message; asking for help or the version prints it and exits with 0.
-/

namespace ConfLex

/-- A command with its own arguments. -/
inductive Command where
  /-- Dump the tokens of the inputs. -/
  | tokens (input : List String) (format : Option String) (noComments : Bool)
      (limit : Option Nat)
  /-- Check that the inputs lex. -/
  | check (input : List String) (jobs : Option Nat)
  deriving DecidableEq, Repr, Inhabited

/-- A command line understood: the global options and the command. -/
structure Invocation where
  /-- Whether verbose output was asked for. -/
  verbose : Bool := false
  /-- The configuration file named, if any. -/
  config : Option String := none
  /-- Whether colour was turned off. -/
  noColor : Bool := false
  /-- The command to run. -/
  command : Command
  deriving DecidableEq, Repr, Inhabited

/-- Why a command line leads to no run. -/
inductive Stop where
  /-- Help was asked for. -/
  | help
  /-- The version was asked for. -/
  | version
  /-- The command line is not understood, for the reason given. -/
  | usage (message : String)
  deriving DecidableEq, Repr, Inhabited

/-- An option of the command line. -/
inductive Opt where
  /-- `-v`, `--verbose`: report more. -/
  | verbose
  /-- `-c`, `--config PATH`: the configuration file. -/
  | config
  /-- `--no-color`: render without colour. -/
  | noColor
  /-- `-F`, `--format FORMAT`: the format of a token dump. -/
  | format
  /-- `--no-comments`: leave comments out of a token dump. -/
  | noComments
  /-- `--limit N`: dump at most this many tokens of each file. -/
  | limit
  /-- `-j`, `--jobs N`: check this many files at once. -/
  | jobs
  /-- `-h`, `--help`: print the help. -/
  | help
  /-- `-V`, `--version`: print the version. -/
  | version
  deriving DecidableEq, Repr, Inhabited

namespace Opt

/-- The option of a long name. -/
def ofLong : String → Option Opt
  | "verbose" => some .verbose
  | "config" => some .config
  | "no-color" => some .noColor
  | "format" => some .format
  | "no-comments" => some .noComments
  | "limit" => some .limit
  | "jobs" => some .jobs
  | "help" => some .help
  | "version" => some .version
  | _ => none

/-- The option of a short name. -/
def ofShort : Char → Option Opt
  | 'v' => some .verbose
  | 'c' => some .config
  | 'F' => some .format
  | 'j' => some .jobs
  | 'h' => some .help
  | 'V' => some .version
  | _ => none

/-- The option's long name. -/
def long : Opt → String
  | .verbose => "verbose"
  | .config => "config"
  | .noColor => "no-color"
  | .format => "format"
  | .noComments => "no-comments"
  | .limit => "limit"
  | .jobs => "jobs"
  | .help => "help"
  | .version => "version"

/-- Whether the option takes a value. -/
def takesValue : Opt → Bool
  | .config | .format | .limit | .jobs => true
  | _ => false

/-- The command the option belongs to, or `none` for an option of every command. -/
def scope : Opt → Option String
  | .format | .noComments | .limit => some "tokens"
  | .jobs => some "check"
  | _ => none

end Opt

/-- The number that a non-empty run of decimal digits writes. -/
def decimalDigits (digits : List Char) : Option Nat :=
  if digits.isEmpty || !digits.all Char.isDigit then none
  else some (digits.foldl (fun n c => 10 * n + (c.toNat - '0'.toNat)) 0)

/-- The number that a text writes in decimal, with an optional `+`, if it is below `bound`.
With `signed`, the text may also start with `-`: it is read as a signed number, which must then
be `0` to lie in the range from `0` to `bound`. -/
def parseBounded (bound : Nat) (signed : Bool) (text : String) : Option Nat :=
  match text.toList with
  | '+' :: rest => (decimalDigits rest).filter (· < bound)
  | '-' :: rest => if signed then (decimalDigits rest).filter (· = 0) else none
  | cs => (decimalDigits cs).filter (· < bound)

example : parseBounded (2 ^ 32) true "-00" = some 0 ∧ parseBounded (2 ^ 32) true "-1" = none ∧
    parseBounded (2 ^ 64) false "-0" = none ∧ parseBounded (2 ^ 64) false "+7" = some 7 := by
  decide +kernel

/-- The global options given at one level of the command line. -/
structure Globals where
  /-- Whether `--verbose` was given. -/
  verbose : Bool := false
  /-- The value of `--config`. -/
  config : Option String := none
  /-- Whether `--no-color` was given. -/
  noColor : Bool := false
  deriving DecidableEq, Repr, Inhabited

/-- A command line as read so far. -/
structure Parsed where
  /-- The global options given before the command. -/
  before : Globals := {}
  /-- The global options given after the command. -/
  after : Globals := {}
  /-- The command named. -/
  command : Option String := none
  /-- The inputs, in order. -/
  input : List String := []
  /-- The value of `--format`. -/
  format : Option String := none
  /-- Whether `--no-comments` was given. -/
  noComments : Bool := false
  /-- The value of `--limit`. -/
  limit : Option Nat := none
  /-- The value of `--jobs`. -/
  jobs : Option Nat := none
  /-- Whether `--` was given, after which every argument is an input. -/
  onlyInputs : Bool := false
  deriving Inhabited

namespace Parsed

/-- The global options of the level being read: before the command until it is named, after
it from then on. -/
def globals (p : Parsed) : Globals := if p.command.isSome then p.after else p.before

/-- The command line with the global options of the level being read replaced. -/
def setGlobals (p : Parsed) (g : Globals) : Parsed :=
  if p.command.isSome then { p with after := g } else { p with before := g }

/-- The usage message of a misplaced or unknown argument. -/
def unexpected (arg : String) : Stop := .usage ("unexpected argument \x27" ++ arg ++ "\x27 found")

/-- The usage message of an option given twice. -/
def repeated (o : Opt) : Stop :=
  .usage ("the argument \x27--" ++ o.long ++ "\x27 cannot be used multiple times")

/-- Sets a value once. -/
def once {α : Type} (o : Opt) (old : Option α) (new : α) : Except Stop (Option α) :=
  match old with
  | some _ => throw (repeated o)
  | none => pure (some new)

/-- Sets a flag once. -/
def flag (o : Opt) (old : Bool) : Except Stop Bool :=
  if old then throw (repeated o) else pure true

/-- The command line with an option applied, and its value if it takes one. -/
def apply (p : Parsed) (o : Opt) (value : Option String) : Except Stop Parsed := do
  if let some cmd := o.scope then
    if p.command ≠ some cmd then throw (unexpected ("--" ++ o.long))
  let bad : Stop := .usage ("invalid value for \x27--" ++ o.long ++ "\x27")
  match o, value with
  | .help, none => throw .help
  | .version, none => throw .version
  | .verbose, none => pure (p.setGlobals { p.globals with verbose := ← flag o p.globals.verbose })
  | .noColor, none => pure (p.setGlobals { p.globals with noColor := ← flag o p.globals.noColor })
  | .noComments, none => pure { p with noComments := ← flag o p.noComments }
  | .config, some v =>
    if v.isEmpty then throw bad
    else pure (p.setGlobals { p.globals with config := ← once o p.globals.config v })
  | .format, some v => pure { p with format := ← once o p.format v }
  | .limit, some v =>
    match parseBounded (Nat.pow 2 64) false v with
    | some n => pure { p with limit := ← once o p.limit n }
    | none => throw bad
  | .jobs, some v =>
    match parseBounded (Nat.pow 2 32) true v with
    | some n => pure { p with jobs := ← once o p.jobs n }
    | none => throw bad
  | _, _ => throw (.usage ("unexpected value for \x27--" ++ o.long ++ "\x27"))

/-- The command line with an argument that is no option: the command, or an input. -/
def positional (p : Parsed) (arg : String) : Except Stop Parsed :=
  match p.command with
  | some _ => if arg.isEmpty then throw (.usage "an input path may not be empty")
    else pure { p with input := p.input ++ [arg] }
  | none =>
    match arg with
    | "tokens" | "check" => pure { p with command := some arg }
    | "help" => throw .help
    | _ => throw (.usage ("unrecognized subcommand \x27" ++ arg ++ "\x27"))

/-- The command line with a cluster of short options applied; the option left waiting for
its value in the next argument, if any. An option that takes a value takes the rest of the
cluster, after an optional `=`; `-F=` gives the empty value, and only a bare `-F` at the end of
the cluster waits for the next argument. -/
def shorts (p : Parsed) : List Char → Except Stop (Parsed × Option Opt)
  | [] => pure (p, none)
  | c :: rest =>
    match Opt.ofShort c with
    | none => throw (unexpected ("-" ++ c.toString))
    | some o =>
      if o.takesValue then
        match rest with
        | [] => pure (p, some o)
        | '=' :: v | v => do pure (← p.apply o (some (String.ofList v)), none)
      else do (← p.apply o none).shorts rest

/-- The command line with one argument applied; the option left waiting for its value in the
next argument, if any. -/
def arg (p : Parsed) (a : String) : Except Stop (Parsed × Option Opt) := do
  if p.onlyInputs then return (← p.positional a, none)
  match a.toList with
  | ['-', '-'] =>
    if p.command.isSome then pure ({ p with onlyInputs := true }, none)
    else throw (unexpected a)
  | '-' :: '-' :: rest =>
    let name := String.ofList (rest.takeWhile (· ≠ '='))
    let value := match rest.dropWhile (· ≠ '=') with
      | '=' :: v => some (String.ofList v)
      | _ => none
    match Opt.ofLong name with
    | none => throw (unexpected ("--" ++ name))
    | some o =>
      if o.takesValue && value.isNone then pure (p, some o)
      else pure (← p.apply o value, none)
  | '-' :: c :: rest => p.shorts (c :: rest)
  | _ => pure (← p.positional a, none)

/-- The command line with all arguments applied. -/
def args (p : Parsed) : List String → Except Stop Parsed
  | [] => pure p
  | a :: rest => do
    match ← p.arg a with
    | (p, none) => p.args rest
    | (p, some o) =>
      match rest with
      | [] => throw (.usage ("a value is required for \x27--" ++ o.long ++ "\x27"))
      | v :: rest => do (← p.apply o (some v)).args rest

end Parsed

/-- A flag given by the environment: `true` or `false`, or absent. -/
def envFlag (host : Host) (name : String) : Except Stop Bool :=
  match host.env name with
  | none => pure false
  | some "true" => pure true
  | some "false" => pure false
  | some v => throw (.usage ("invalid value \x27" ++ v ++ "\x27 for " ++ name))

/-- A flag given before or after the command, or else by the environment, which is read unless
both levels give the flag. -/
def levelFlag (host : Host) (name : String) (before after : Bool) : Except Stop Bool := do
  if before && after then pure true
  else pure (before || after || (← envFlag host name))

/-- The configuration path given after the command, or else before it, or else by the
environment, which is read unless both levels give a path and may not give the empty path. -/
def levelConfig (host : Host) (before after : Option String) : Except Stop (Option String) := do
  let fromEnv ← if before.isSome && after.isSome then pure none
    else match host.env "CFGT_CONFIG" with
      | some "" => throw (.usage "a value is required for \x27--config\x27")
      | c => pure c
  pure (after <|> before <|> fromEnv)

/-- The invocation that a command line and the environment make. -/
def Invocation.parse (host : Host) (argv : List String) : Except Stop Invocation := do
  let p ← ({} : Parsed).args argv
  let verbose ← levelFlag host "CFGT_VERBOSE" p.before.verbose p.after.verbose
  let noColor ← levelFlag host "CFGT_NO_COLOR" p.before.noColor p.after.noColor
  let config ← levelConfig host p.before.config p.after.config
  let command ← match p.command with
    | none => throw (.usage "a command is required")
    | some cmd =>
      if p.input.isEmpty then
        throw (.usage "the following required arguments were not provided: <INPUT>...")
      else if cmd = "tokens" then pure (Command.tokens p.input p.format p.noComments p.limit)
      else pure (Command.check p.input p.jobs)
  pure { verbose, config, noColor, command }

example : (levelConfig ⟨fun _ => none, fun _ => none, false⟩ (some "a") (some "b")).toOption =
    some (some "b") := by
  rfl

/-- The paths that a run of an invocation may look at: the configuration file named, or the
places searched for one, and the inputs. -/
def Invocation.paths (host : Host) (inv : Invocation) : List String :=
  (match inv.config with
    | some path => [path]
    | none => Settings.candidates host) ++
  match inv.command with
  | .tokens input _ _ _ => input
  | .check input _ => input

/-- How a run ended: its exit status and what it wrote to each stream. -/
structure Outcome where
  /-- The exit status. -/
  status : Nat
  /-- What was written to the standard output. -/
  stdout : String
  /-- What was written to the error stream. -/
  stderr : String
  deriving DecidableEq, Repr, Inhabited

/-- The tool's version. -/
def version : String := "0.1.0"

/-- The usage line. -/
def usageLine : String := "Usage: cfgt [OPTIONS] <COMMAND>\n"

/-- The help text. -/
def helpText : String :=
  "Tools for cfgs configuration files\n\n" ++ usageLine ++ "\nCommands:\n" ++
  "  tokens  Dump the tokens of configuration files\n" ++
  "  check   Check that configuration files lex cleanly\n" ++
  "  help    Print this message or the help of the given subcommand(s)\n\nOptions:\n" ++
  "  -v, --verbose          Enable verbose output\n" ++
  "  -c, --config <CONFIG>  Path to configuration file\n" ++
  "      --no-color         Disable color output\n" ++
  "  -h, --help             Print help\n" ++
  "  -V, --version          Print version\n"

/-- Runs an invocation in a session. -/
def Invocation.run (host : Host) (inv : Invocation) : Session Unit := do
  let settings ← Session.lift (Settings.loadOption host inv.config)
  let verbose := inv.verbose || settings.verbose
  match inv.command with
  | .tokens input format noComments limit =>
    TokensRequest.run host { verbose, input, format, noComments, limit, noColor := inv.noColor }
      settings
  | .check input jobs =>
    CheckRequest.check host { verbose, input, jobs, noColor := inv.noColor } settings

/-- Runs the tool on a command line. -/
def runCli (host : Host) (argv : List String) : Outcome :=
  match Invocation.parse host argv with
  | .error .help => ⟨0, helpText, ""⟩
  | .error .version => ⟨0, "cfgt " ++ version ++ "\n", ""⟩
  | .error (.usage message) =>
    ⟨2, "", "error: " ++ message ++ "\n\n" ++ usageLine ++
      "\nFor more information, try \x27--help\x27.\n"⟩
  | .ok inv =>
    match (inv.run host).exec with
    | (.ok (), c) => ⟨0, c.out, c.err⟩
    | (.error e, c) => ⟨1, c.out, c.err ++ "Error: " ++ e.debug ++ "\n"⟩

end ConfLex
