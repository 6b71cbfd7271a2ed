import InjectionPlan.Failure
import InjectionPlan.Resolution.Settings
import InjectionPlan.Text.Blank
import InjectionPlan.Text.Case

/-!
# Configuration

The configuration of a run: logging, resolution and output. A configuration is checked before it
is used; the first condition that fails is told.
-/

namespace InjectionPlan

open Json (Value Decoder Record)

inductive LogLevel where
  | error
  | warn
  | info
  | debug
  | trace
  deriving DecidableEq

namespace LogLevel

def label : LogLevel → String
  | .error => "ERROR"
  | .warn => "WARN"
  | .info => "INFO"
  | .debug => "DEBUG"
  | .trace => "TRACE"

def rank : LogLevel → Nat
  | .error => 1
  | .warn => 2
  | .info => 3
  | .debug => 4
  | .trace => 5

def words : List (String × LogLevel) :=
  [("trace", .trace), ("debug", .debug), ("info", .info), ("warn", .warn), ("warning", .warn),
    ("error", .error)]

/-- The level of a word in any case, with blanks around it. -/
def ofText? (text : String) : Option LogLevel :=
  let wanted := Text.lower (Text.trim text)
  (words.find? fun (word, _) => word = wanted).map Prod.snd

end LogLevel

structure LogConfig where
  level : String := "warn"
  jsonFormat : Bool := false
  /-- Events also go to a file that a new one follows every day. -/
  file : Option String := none
  deriving DecidableEq

structure OutputConfig where
  pretty : Bool := true
  /-- The file of the plan. Without one it goes to standard output. -/
  path : Option String := none
  deriving DecidableEq

structure Config where
  logging : LogConfig := {}
  settings : Settings := {}
  output : OutputConfig := {}
  deriving DecidableEq

inductive ConfigError where
  | unknownLevel (level : String)
  | noDefaultModule
  | noTokenSuffix
  /-- The name of a tag is blank or has a blank in it. -/
  | notOneWord (role tag : String)
  | usedTwice (tag : String)
  | fileNotFound (path : String)
  deriving DecidableEq

def ConfigError.message : ConfigError → String
  | .unknownLevel level =>
    s!"Invalid log level: {level}. Use trace, debug, info, warn, or error"
  | .noDefaultModule => "Default module cannot be empty"
  | .noTokenSuffix => "Token suffix cannot be empty"
  | .notOneWord role tag => s!"Annotation tag for {role} must be a single word, got `{tag}`"
  | .usedTwice tag => s!"Annotation tag `{tag}` is used twice"
  | .fileNotFound path => s!"Configuration file not found: {path}"

def ConfigError.failure (error : ConfigError) : Failure := .configuration error.message none

def LogLevel.parse (text : String) : Except ConfigError LogLevel :=
  match ofText? text with
  | some level => .ok level
  | none => .error (.unknownLevel text)

namespace TagNames

/-- The names with their roles, as messages show them. -/
def roles (names : TagNames) : List (String × String) :=
  [("service", names.service), ("multi keyword", names.multiKeyword),
    ("injectable", names.injectable), ("lifecycle", names.lifecycle), ("module", names.module)]

/-- The names that must differ from each other. -/
def tags (names : TagNames) : List String :=
  [names.service, names.injectable, names.lifecycle, names.module]

def isOneWord (text : String) : Bool := !Text.isBlankText text && !Text.hasBlank text

/-- The first element that stands earlier in the list too; `before` are the elements passed. -/
def firstRepeated? (before : List String) : List String → Option String
  | [] => none
  | tag :: rest => if tag ∈ before then some tag else firstRepeated? (tag :: before) rest

def fault? (names : TagNames) : Option ConfigError :=
  (names.roles.find? fun (_, tag) => !isOneWord tag).map (fun (role, tag) => .notOneWord role tag)
    <|> (firstRepeated? [] names.tags).map .usedTwice

end TagNames

namespace Settings

def fault? (settings : Settings) : Option ConfigError :=
  if Text.isBlankText settings.defaultModule then some .noDefaultModule
  else if Text.isBlankText settings.tokenSuffix then some .noTokenSuffix
  else settings.tagNames.fault?

end Settings

namespace Config

def fault? (config : Config) : Option ConfigError :=
  match LogLevel.parse config.logging.level with
  | .error error => some error
  | .ok _ => config.settings.fault?

def validate (config : Config) : Except ConfigError Config :=
  match config.fault? with
  | none => .ok config
  | some error => .error error

end Config

namespace LogConfig

def encode (logging : LogConfig) : Value :=
  .object [("level", .string logging.level), ("json_format", .bool logging.jsonFormat),
    ("file_output", .ofOption logging.file)]

def record : Record LogConfig :=
  LogConfig.mk <$> .defaulted "level" "warn" .text <*> .defaulted "json_format" false .bool <*>
    .optional "file_output" .text

end LogConfig

namespace OutputConfig

def encode (output : OutputConfig) : Value :=
  .object [("pretty", .bool output.pretty), ("path", .ofOption output.path)]

def record : Record OutputConfig :=
  OutputConfig.mk <$> .defaulted "pretty" true .bool <*> .optional "path" .text

end OutputConfig

namespace Config

def encode (config : Config) : Value :=
  .object [("logging", config.logging.encode), ("resolver", config.settings.encode),
    ("output", config.output.encode)]

def record (surplus : Record.Surplus) : Record Config :=
  Config.mk <$> .defaulted "logging" {} (LogConfig.record.decode surplus) <*>
    .defaulted "resolver" {} (Settings.decode surplus) <*>
    .defaulted "output" {} (OutputConfig.record.decode surplus)

def decode (surplus : Record.Surplus) : Decoder Config := (record surplus).decode surplus

end Config

end InjectionPlan
