import InjectionPlan.CommandLine
import InjectionPlan.Config.Load
import InjectionPlan.Log.Filter

/-!
# Sessions

A session is one call of the command: it finds and checks the configuration, runs, and says what
has to be shown and which exit code is due. Nothing is logged before the configuration is known.
-/

namespace InjectionPlan

structure Surroundings where
  environment : List (String × String) := []
  /-- The directory of the configurations of the user. -/
  home : Option String := none

/-- The files of a log: a new one every day, with the date after the stem. -/
structure LogFile where
  directory : String
  stem : String
  deriving DecidableEq

namespace LogFile

/-- The stem of the files where the configuration gives none. -/
def usualStem : String := "diwire"

/-- The files that stand for a path. The extension of the path is dropped. -/
def ofPath (path : String) : LogFile :=
  ⟨(Path.parent? path).getD ".", (Path.stem? path).getD usualStem⟩

def pathOn (file : LogFile) (date : String) : String :=
  Path.join file.directory (file.stem ++ "." ++ date)

end LogFile

structure Session where
  exitCode : Nat := 0
  output : String := ""
  /-- What goes to standard error, in order. -/
  notices : List Notice := []
  jsonFormat : Bool := false
  /-- Where events go too. The file is made even if there are none. -/
  logFile : Option LogFile := none

namespace Event

def loggingInitialized (level : LogLevel) : Event :=
  ⟨.logging, .info, "Logging initialized with level: " ++ level.label, []⟩

def configurationLoaded (path : String) : Event :=
  ⟨.logging, .info, "Configuration loaded from " ++ path, []⟩

end Event

namespace Notice

def passes (filter : LogFilter) : Notice → Bool
  | .log event => filter.admits event
  | .say _ => true
  | .fail _ => true

def render (json : Bool) : Notice → String
  | .log event => event.render json ++ "\n"
  | .say text => text
  | .fail failure => "diwire: " ++ failure.message ++ "\n"

end Notice

namespace Session

def version : String := "diwire 0.1.0\n"

def events (session : Session) : List Event :=
  session.notices.filterMap fun
    | .log event => some event
    | _ => none

def errorOutput (session : Session) : String :=
  String.join (session.notices.map (Notice.render session.jsonFormat))

def logText (session : Session) : String :=
  String.join (session.events.map fun event => event.render session.jsonFormat ++ "\n")

/-- A session that ends with a failure before anything is logged. -/
def failed (failure : Failure) : Session := { exitCode := 1, notices := [.fail failure] }

/-- The session of a run. `source` is the file of the configuration. -/
def ofReport (surroundings : Surroundings) (source : Option String) (config : Config)
    (report : Report) : Session :=
  let opening : List Event :=
    ((LogLevel.ofText? config.logging.level).map .loggingInitialized).toList ++
      (source.map .configurationLoaded).toList
  let closing : List Notice := match report.outcome with
    | .ok _ => []
    | .error failure => [.fail failure]
  let filter := LogFilter.choose surroundings.environment config.logging
  { exitCode := if closing.isEmpty then 0 else 1
    output := report.output
    notices := (opening.map Notice.log ++ report.notices ++ closing).filter (Notice.passes filter)
    jsonFormat := config.logging.jsonFormat
    logFile := config.logging.file.map .ofPath }

variable {m : Type → Type} [Monad m] [FileSystem m]

/-- Runs with the configuration of a file or of the usual places. The directory of the log is
made before the run. -/
def ofRun (surroundings : Surroundings) (options : RunOptions) (path : Option String) :
    m Session := do
  let source : ConfigSource :=
    { path, home := surroundings.home, environment := surroundings.environment }
  match ← source.locate with
  | .error error => pure (.failed error.failure)
  | .ok file =>
    match ← source.load with
    | .error failure => pure (.failed failure)
    | .ok config => do
      if let some path := config.logging.file then
        discard <| FileSystem.ensureAll (LogFile.ofPath path).directory
      return .ofReport surroundings file config (← options.run config)

def ofArguments (surroundings : Surroundings) (arguments : List String) : m Session :=
  match Invocation.ofArguments arguments with
  | .error error => pure { exitCode := 2, notices := [.say error.message] }
  | .ok .version => pure { output := version }
  | .ok .help => pure { output := usage }
  | .ok (.run options path) => ofRun surroundings options path

end Session

end InjectionPlan
