import InjectionPlan.Resolution.Context
import InjectionPlan.Resolution.Walk

/-!
# Inherited tokens

An exported interface or alias inherits a token when it aliases or extends a type that has one.
Declarations are gone through in rounds until a round mints nothing, so chains of them are
followed in any order of declaration.
-/

namespace InjectionPlan

namespace Oracle

/-- The types that a declaration may inherit a token from. -/
def candidates (oracle : Oracle) (declaration : Declaration) : List TypeId :=
  match declaration.aliased with
  | some target => [target]
  | none => if declaration.kind = .interface then oracle.bases declaration.type else []

end Oracle

namespace Context

/-- The first candidate whose name has a token, with that name. -/
def base? (context : Context) (declaration : Declaration) : Option (TypeId × String) :=
  (context.oracle.candidates declaration).findSome? fun candidate =>
    match context.oracle.named? candidate with
    | some name => if context.registry.contains name then some (candidate, name) else none
    | none => none

def awaitsToken (context : Context) (declaration : Declaration) : Bool :=
  declaration.exported && declaration.kind.isTypeLike &&
    !context.registry.contains declaration.qualifiedName

/-- Gives a declaration the token that it inherits. The base and the generic arguments of the
base are kept as its derivation. -/
def deriveToken (context : Context) (annotated : AnnotatedDeclaration) :
    Except ResolveError Context :=
  let declaration := annotated.declaration
  if context.awaitsToken declaration then
    match context.base? declaration with
    | none => .ok context
    | some (candidate, baseName) => do
      let name := declaration.qualifiedName
      let id := context.registry.idFor name
      let registry :=
        (context.registry.request name .single .autoDetected).record id declaration.file
      let walk ← Walk.arguments context.oracle ⟨id, name⟩ registry candidate
      let derived : Metadata := ⟨[context.registry.idFor baseName], walk.generics⟩
      pure { context with
        registry := walk.registry
        derivations := context.derivations.insert id derived }
  else .ok context

def deriveRound (context : Context) : Except ResolveError Context :=
  context.declarations.foldlM deriveToken context

/-- Goes through the declarations until a round mints nothing, in at most so many rounds. -/
def deriveRounds : Nat → Context → Except ResolveError Context
  | 0, context => .ok context
  | rounds + 1, context => do
    let next ← context.deriveRound
    if next.registry.size = context.registry.size then pure next else deriveRounds rounds next

/-- Gives every declaration the token that it inherits. A round that mints gives a token to a
declaration that had none, so one round more than there are declarations is enough. -/
def deriveTokens (context : Context) : Except ResolveError Context :=
  deriveRounds (context.declarations.length + 1) context

end Context

end InjectionPlan
