import InjectionPlan.Token

/-!
# Why no plan can be made

A failure ends the whole resolution; no part of a plan is given.
-/

namespace InjectionPlan

inductive ResolveError where
  /-- A structural type stands where a token is needed. -/
  | structuralType (declaration typeText : String)
  /-- Tokens refer to each other in a circle. The chain ends with the token it begins with. -/
  | cycle (chain : List TokenId)
  deriving DecidableEq

def ResolveError.message : ResolveError → String
  | .structuralType declaration typeText =>
    s!"structural type `{typeText}` cannot be used as a dependency key in `{declaration}`"
  | .cycle chain =>
    "cyclic token dependency: " ++ " -> ".intercalate (chain.map TokenId.text)

end InjectionPlan
