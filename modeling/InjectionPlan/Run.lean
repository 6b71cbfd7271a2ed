import InjectionPlan.Files.Basic
import InjectionPlan.Log
import InjectionPlan.Plan.Codec
import InjectionPlan.Resolution.Pass
import InjectionPlan.Source.Codec

/-!
# A run

A run reads a snapshot, resolves it and delivers the plan to a file or to standard output. The
plan is delivered last: a run that fails before delivers nothing.
-/

namespace InjectionPlan

/-- What is asked of a run. What is not asked for is as the configuration says. -/
structure RunOptions where
  snapshot : String
  output : Option String := none
  pretty : Option Bool := none
  summary : Bool := false
  deriving DecidableEq

inductive Notice where
  | log (event : Event)
  /-- A text for the user, which no filter keeps back. -/
  | say (text : String)
  /-- The failure that ends the run, which no filter keeps back. -/
  | fail (failure : Failure)
  deriving DecidableEq

structure Report where
  notices : List Notice
  /-- What it wrote to standard output. -/
  output : String := ""
  outcome : Except Failure Plan

namespace Event

def snapshotLoaded (path : String) (declarations : Nat) : Event :=
  ⟨.snapshots, .info, "Snapshot loaded",
    [("path", .text path), ("declarations", .count declarations)]⟩

def resolutionStarted (declarations : Nat) : Event :=
  ⟨.resolution, .info, "resolving injection plan", [("declarations", .count declarations)]⟩

def ofDiagnostic (diagnostic : Diagnostic) : Event where
  component := .diagnostics
  level := match diagnostic.severity with
    | .warning => .warn
    | .info => .info
  message := diagnostic.message
  fields := [("code", .quoted diagnostic.condition.code),
    ("declaration", .text diagnostic.declaration), ("file", .text diagnostic.file)]

def resolutionAborted (abort : Abort) : Event :=
  ⟨.resolution, .error, "resolution aborted",
    [("pass", .quoted (Text.word abort.pass)), ("error", .text abort.error.message)]⟩

def resolutionComplete (plan : Plan) : Event :=
  ⟨.resolution, .info, "resolution complete",
    [("tokens", .count plan.tokens.length), ("factories", .count plan.factories.length),
      ("modules", .count plan.modules.length), ("diagnostics", .count plan.diagnostics.length)]⟩

def warningsReported (warnings : Nat) : Event :=
  ⟨.run, .warn, "Resolution finished with warnings", [("warnings", .count warnings)]⟩

def planWritten (path : String) : Event :=
  ⟨.plans, .info, "Plan written", [("path", .text path)]⟩

def runComplete (plan : Plan) : Event :=
  ⟨.run, .info, "Run complete", [("bindings", .count plan.bindingCount)]⟩

end Event

namespace Resolution

def warnings (resolution : Resolution) : Nat :=
  resolution.reported.countP fun diagnostic => diagnostic.severity = .warning

/-- What a resolution tells: its start, the diagnostics, its end, and whether it warned. -/
def events (resolution : Resolution) (declarations : Nat) : List Event :=
  let ending := match resolution.outcome with
    | .error abort => [.resolutionAborted abort]
    | .ok plan => .resolutionComplete plan ::
        if resolution.warnings = 0 then [] else [.warningsReported resolution.warnings]
  .resolutionStarted declarations :: resolution.reported.map .ofDiagnostic ++ ending

end Resolution

variable {m : Type → Type} [Monad m] [FileSystem m]

/-- The snapshot of a file. A fault of its text is told with the path. -/
def Snapshot.load (path : String) : m (Except Failure Snapshot) := do
  match ← FileSystem.read path with
  | .error error => pure (.error (.ioIn ("Failed to read snapshot " ++ path) error.message))
  | .ok text =>
    match Snapshot.ofText text with
    | .ok snapshot => pure (.ok snapshot)
    | .error (.json fault) => pure (.error (.snapshotText path fault))
    | .error (.invalid error) =>
      pure (.error (.snapshot (Failure.inContext path error.message)))

/-- Makes the directory that a file is to stand in. -/
def ensureParent (path : String) : m (Except Failure Unit) :=
  match (Path.parent? path).filter (· ≠ "") with
  | none => pure (.ok ())
  | some parent => do
    return (← FileSystem.ensureAll parent).mapError fun error =>
      .ioIn ("Failed to create " ++ parent) error.message

def writePlan (path text : String) : m (Except Failure Unit) := do
  match ← ensureParent path with
  | .error failure => pure (.error failure)
  | .ok () =>
    return (← FileSystem.write path text).mapError fun error =>
      .ioIn ("Failed to write plan " ++ path) error.message

namespace RunOptions

/-- Delivers a plan and ends the run. `events` are those before. -/
def deliver (options : RunOptions) (output : OutputConfig) (plan : Plan) (events : List Event) :
    m Report := do
  let text := plan.render (options.pretty.getD output.pretty)
  let ending : List Notice :=
    (if options.summary then [.say plan.summarize] else []) ++ [.log (.runComplete plan)]
  match options.output <|> output.path with
  | none => pure ⟨events.map .log ++ ending, text, .ok plan⟩
  | some path =>
    match ← writePlan path text with
    | .error failure => pure ⟨events.map .log, "", .error failure⟩
    | .ok () => pure ⟨(events ++ [Event.planWritten path]).map .log ++ ending, "", .ok plan⟩

def run (options : RunOptions) (config : Config) : m Report := do
  match ← Snapshot.load options.snapshot with
  | .error failure => pure ⟨[], "", .error failure⟩
  | .ok snapshot =>
    let declarations := snapshot.declarations.length
    let resolution := Resolution.of snapshot.oracle config.settings
    let events :=
      .snapshotLoaded options.snapshot declarations :: resolution.events declarations
    match resolution.outcome with
    | .error abort => pure ⟨events.map .log, "", .error (.resolution abort.error)⟩
    | .ok plan => options.deliver config.output plan events

end RunOptions

end InjectionPlan
