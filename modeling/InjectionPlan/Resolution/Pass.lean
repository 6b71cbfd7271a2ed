import InjectionPlan.Resolution.Bindings
import InjectionPlan.Resolution.Derivation
import InjectionPlan.Resolution.Factories
import InjectionPlan.Resolution.Metadata
import InjectionPlan.Resolution.Services

/-!
# Resolution of a code base

Six passes in a fixed order make a plan. The diagnostics of a pass are reported when it is over;
a pass that fails ends the resolution.
-/

namespace InjectionPlan

open Text (Vocabulary)

inductive Pass where
  /-- Tokens of annotated services. -/
  | registration
  /-- Tokens that declarations inherit. -/
  | autoDetection
  /-- Factories and the tokens that they need. -/
  | factories
  /-- What tokens refer to. -/
  | metadata
  /-- The order of emission. -/
  | ordering
  /-- The bindings of each module. -/
  | planning
  deriving DecidableEq

instance : Vocabulary Pass where
  values := [.registration, .autoDetection, .factories, .metadata, .ordering, .planning]
  word
    | .registration => "registration"
    | .autoDetection => "auto_detect"
    | .factories => "factories"
    | .metadata => "metadata"
    | .ordering => "ordering"
    | .planning => "planning"

namespace Pass

def all : List Pass := Vocabulary.values

def run : Pass → Context → Except ResolveError Context
  | .registration, context => .ok context.registerServices
  | .autoDetection, context => context.deriveTokens
  | .factories, context => context.resolveFactories
  | .metadata, context => context.collectMetadata
  | .ordering, context => context.orderTokens
  | .planning, context => .ok context.bindFactories

end Pass

structure Abort where
  pass : Pass
  error : ResolveError
  deriving DecidableEq

structure Resolution where
  /-- The diagnostics that were reported before the end. -/
  reported : List Diagnostic
  outcome : Except Abort Plan

namespace Resolution

def resume : List Pass → Context → List Diagnostic → Resolution
  | [], context, reported => ⟨reported, .ok (context.plan reported)⟩
  | pass :: rest, context, reported =>
    match pass.run context with
    | .error error => ⟨reported, .error ⟨pass, error⟩⟩
    | .ok next => resume rest next.drained (reported ++ next.pending)

def of (oracle : Oracle) (settings : Settings) : Resolution :=
  resume Pass.all (.start oracle settings) []

end Resolution

/-- The plan of a code base. -/
def resolve (oracle : Oracle) (settings : Settings) : Except ResolveError Plan :=
  (Resolution.of oracle settings).outcome.mapError Abort.error

end InjectionPlan
