import ConfLex.Config.Datum

/-!
# Settings

The settings of the tool: whether it is verbose, how tokens are dumped and how many files are
checked at once. Each has a default, which a configuration file may override; command-line
options override both.

Settings are decoded from a datum the way record types are decoded from self-describing data:

* a record is read from a map by field name, where fields that are not given keep their default
  and names that are not fields are ignored, or from a sequence by field position, where missing
  items keep their default;
* a value of the wrong type is refused with a message that names it and what was expected, and
  the first such value in reading order is the one reported;
* a sequence longer than its record is refused when `strict` is set (data read from JSON) and its
  extra items are ignored otherwise (data read from TOML);
* a TOML date-time is presented as a map with one private name, so it decodes as a record that
  gives no field, and as nothing else.

The number of jobs has no fixed default: when neither a file nor an option gives one, it is the
number of processors, which is never `0`.
-/

namespace ConfLex

/-- How tokens are dumped. -/
structure TokensSettings where
  /-- The name of the output format. -/
  format : String := "text"
  /-- Whether comments are dumped. -/
  includeComments : Bool := true
  deriving DecidableEq, Repr, Inhabited

/-- How files are checked. -/
structure CheckSettings where
  /-- How many files are scanned at once; `none` for as many as there are processors. -/
  jobs : Option Nat := none
  deriving DecidableEq, Repr, Inhabited

/-- The settings of the tool. -/
structure Settings where
  /-- Whether to report every file checked. -/
  verbose : Bool := false
  /-- How tokens are dumped. -/
  tokens : TokensSettings := {}
  /-- How files are checked. -/
  check : CheckSettings := {}
  deriving DecidableEq, Repr, Inhabited

/-- Decodes a record from a datum: a map sets each field it names with `set`, a sequence sets
the fields in the order `fields` lists them. `name` names the record in messages. A date-time
is presented to a record as a map whose one name is no field, so it gives the defaults. -/
def decodeRecord {α : Type} (name : String) (fields : List String) (strict : Bool) (init : α)
    (set : α → String → Datum → Except String α) : Datum → Except String α
  | .map members =>
    members.foldlM (fun r (key, d) => if fields.contains key then set r key d else pure r) init
  | .seq items => do
    let r ← (fields.zip items).foldlM (fun r (key, d) => set r key d) init
    if strict && fields.length < items.length then
      throw ("invalid length " ++ toString items.length ++ ", expected fewer elements in array")
    pure r
  | .datetime _ => pure init
  | d => throw (d.invalidType name)

namespace TokensSettings

/-- The fields in order. -/
def fields : List String := ["format", "include_comments"]

/-- The settings with one field set from a datum. -/
def set (s : TokensSettings) : String → Datum → Except String TokensSettings
  | "format", d => do pure { s with format := ← d.asString }
  | "include_comments", d => do pure { s with includeComments := ← d.asBool }
  | _, _ => pure s

/-- Token settings decoded from a datum. -/
def ofDatum (strict : Bool) : Datum → Except String TokensSettings :=
  decodeRecord "struct TokensConfig" fields strict {} set

end TokensSettings

namespace CheckSettings

/-- The fields in order. -/
def fields : List String := ["jobs"]

/-- The settings with one field set from a datum. -/
def set (s : CheckSettings) : String → Datum → Except String CheckSettings
  | "jobs", d => do pure { s with jobs := some (← d.asU32) }
  | _, _ => pure s

/-- Check settings decoded from a datum. -/
def ofDatum (strict : Bool) : Datum → Except String CheckSettings :=
  decodeRecord "struct CheckConfig" fields strict {} set

end CheckSettings

namespace Settings

/-- The fields in order. -/
def fields : List String := ["verbose", "tokens", "check"]

/-- The settings with one field set from a datum. -/
def set (strict : Bool) (s : Settings) : String → Datum → Except String Settings
  | "verbose", d => do pure { s with verbose := ← d.asBool }
  | "tokens", d => do pure { s with tokens := ← TokensSettings.ofDatum strict d }
  | "check", d => do pure { s with check := ← CheckSettings.ofDatum strict d }
  | _, _ => pure s

/-- Settings decoded from a datum. -/
def ofDatum (strict : Bool) : Datum → Except String Settings :=
  decodeRecord "struct Config" fields strict {} (set strict)

end Settings

example : Settings.ofDatum true (.map [("tokens", .map [("format", .int 5)])]) =
    .error "invalid type: integer `5`, expected a string" := by rfl

end ConfLex
