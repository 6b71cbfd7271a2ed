import InjectionPlan.Json.Fault
import InjectionPlan.Resolution.Error

/-!
# Failures of a run

What can end a run, with the text that a user reads. A failure that another one caused keeps the
text of its cause.
-/

namespace InjectionPlan

def Json.Fault.message : Json.Fault → String
  | .malformed => "the text is not JSON"
  | .mismatch => "a value is not of the kind that is expected"
  | .truncated => "the text ends too early"

inductive Failure where
  | resolution (error : ResolveError)
  | io (message : String) (cause : Option String)
  | configuration (message : String) (cause : Option String)
  /-- The sources of the configuration do not give one. -/
  | settings (detail : String)
  | snapshot (message : String)
  /-- The file of the snapshot does not hold one. -/
  | snapshotText (path : String) (fault : Json.Fault)
  deriving DecidableEq

namespace Failure

def inContext (context cause : String) : String := context ++ ": " ++ cause

def ioIn (context cause : String) : Failure := .io (inContext context cause) (some cause)

def configurationIn (context cause : String) : Failure :=
  .configuration (inContext context cause) (some cause)

def message : Failure → String
  | .resolution error => "Resolution failed: " ++ error.message
  | .io message _ => "I/O error: " ++ message
  | .configuration message _ => "Configuration error: " ++ message
  | .settings detail =>
    "Configuration error: " ++ inContext "Failed to extract configuration" detail
  | .snapshot message => "Invalid snapshot: " ++ message
  | .snapshotText path fault => "Invalid snapshot: " ++ inContext path fault.message

def cause? : Failure → Option String
  | .resolution error => some error.message
  | .io _ cause => cause
  | .configuration _ cause => cause
  | .settings detail => some detail
  | .snapshot _ => none
  | .snapshotText _ _ => none

def isResolution : Failure → Bool
  | .resolution _ => true
  | _ => false

end Failure

end InjectionPlan
