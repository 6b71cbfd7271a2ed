/-!
# Faults of a JSON text

Why a text is not the value that was wanted. The three causes are told apart by every reader.
-/

namespace InjectionPlan.Json

/-- What is wrong with a JSON text at the first place where it cannot be read on. -/
inductive Fault where
  | malformed
  /-- The value is JSON of another shape than the wanted one. -/
  | mismatch
  | truncated
  deriving DecidableEq

end InjectionPlan.Json
