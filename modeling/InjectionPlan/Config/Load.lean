import InjectionPlan.Config.Environment
import InjectionPlan.Files.Basic
import InjectionPlan.Toml.Document

/-!
# Loading the configuration

The configuration comes from one file and from the environment, which overrides the file. A file
that is asked for must be there; otherwise the first of the usual places that has one is taken.
-/

namespace InjectionPlan

structure ConfigSource where
  path : Option String := none
  /-- What the names of variables begin with. -/
  variablePrefix : String := "DIWIRE"
  /-- The directory of the configurations of a user. -/
  home : Option String := none
  environment : List (String × String) := []

namespace ConfigSource

def fileName : String := "diwire.toml"

/-- The directory of the configurations of a user: an absolute one that is set, or the usual
one. -/
def homeOf (environment : List (String × String)) : Option String :=
  ((environment.lookup "XDG_CONFIG_HOME").filter Path.isAbsolute) <|>
    (((environment.lookup "HOME").filter (· ≠ "")).map fun home => Path.join home ".config")

def places (source : ConfigSource) : List String :=
  let below (directory : String) : String := Path.join (Path.join directory "diwire") fileName
  [fileName, below ""] ++ (source.home.map below).toList

variable {m : Type → Type} [Monad m] [FileSystem m]

def firstPresent : List String → m (Option String)
  | [] => pure none
  | path :: rest => do
    if ← FileSystem.present path then pure (some path) else firstPresent rest

def locate (source : ConfigSource) : m (Except ConfigError (Option String)) := do
  match source.path with
  | none => return .ok (← firstPresent source.places)
  | some path =>
    if ← FileSystem.present path then return .ok (some path)
    else return .error (.fileNotFound path)

/-- The settings of a file. A directory has none. -/
def fileSettings (path : String) : m (Option Setting) := do
  match ← FileSystem.read path with
  | .ok text => pure (Toml.settings? text)
  | .error .isDirectory => pure (some (.table []))
  | .error _ => pure none

/-- The configuration of a file with the variables laid over it, once it is checked. -/
def assemble (source : ConfigSource) (file : Option Setting) : Except Failure Config := do
  let settings := Environment.settings source.variablePrefix source.environment
  match file.bind fun file => (file.overlay settings).config? with
  | none => throw (.settings "a setting is not of the kind that is expected")
  | some config => config.validate.mapError ConfigError.failure

def load (source : ConfigSource) : m (Except Failure Config) := do
  match ← source.locate with
  | .error error => pure (.error error.failure)
  | .ok none => pure (source.assemble (some (.table [])))
  | .ok (some path) => return source.assemble (← fileSettings path)

end ConfigSource

end InjectionPlan
