import InjectionPlan.Plan
import InjectionPlan.Registry
import InjectionPlan.Resolution.Error
import InjectionPlan.Resolution.Settings

/-!
# The state of a resolution

One value goes through every pass of a resolution. A pass adds to what the passes before it
left, and the plan is put together from the last state.
-/

namespace InjectionPlan

/-- A declaration and what its tags mean. -/
structure AnnotatedDeclaration where
  declaration : Declaration
  annotations : Annotations

structure ResolvedFactory where
  factory : Factory
  productType : TypeId

structure Context where
  oracle : Oracle
  settings : Settings
  /-- The declarations in order of discovery. -/
  declarations : List AnnotatedDeclaration
  registry : Registry
  /-- What a token inherits its being from, as metadata. -/
  derivations : Table TokenId Metadata := .empty
  factories : List ResolvedFactory := []
  /-- The metadata of the tokens that refer to any. -/
  metadata : Table TokenId Metadata := .empty
  order : List TokenId := []
  /-- What the factories are bound to, in their order. -/
  targets : List TokenId := []
  modules : Table String (List Binding) := .empty
  /-- The diagnostics since they were last taken. -/
  pending : List Diagnostic := []

namespace Oracle

/-- The type that the first type declaration of a qualified name stands for. -/
def declaredType? (oracle : Oracle) (name : String) : Option TypeId :=
  (oracle.declarations.find? fun declaration =>
    declaration.kind.declaresType && declaration.qualifiedName = name).map
      Declaration.subjectType

end Oracle

namespace Context

def start (oracle : Oracle) (settings : Settings) : Context where
  oracle
  settings
  declarations := oracle.declarations.map fun declaration =>
    ⟨declaration, .ofTags settings.tagNames declaration.tags⟩
  registry := .new settings.tokenSuffix

def bindings (context : Context) (module : String) : List Binding :=
  (context.modules.get? module).getD []

def drained (context : Context) : Context := { context with pending := [] }

def report (context : Context) (diagnostic : Diagnostic) : Context :=
  { context with pending := context.pending ++ [diagnostic] }

/-- A token of the registry as it is planned. -/
def planned (context : Context) (minted : Minted) : PlannedToken :=
  let token := context.registry.tokenOf minted
  ⟨token, minted.origin, (context.metadata.get? token.id).getD {}⟩

/-- The plan of a state that went through every pass. -/
def plan (context : Context) (diagnostics : List Diagnostic) : Plan where
  tokens := (context.order.filterMap context.registry.entry?).map context.planned
  factories := List.zipWith (fun resolved target => ⟨resolved.factory, target⟩)
    context.factories context.targets
  modules := context.modules.entries.map fun (name, bindings) => ⟨name, bindings⟩
  imports := .ofList (context.order.filterMap fun id =>
    (context.registry.imports.get? id).map fun file => (id, file))
  diagnostics

end Context

end InjectionPlan
