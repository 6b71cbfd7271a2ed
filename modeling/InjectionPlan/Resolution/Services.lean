import InjectionPlan.Resolution.Context

/-!
# Annotated services

Every exported type declaration with a service tag gets a token of the cardinality that the tag
asks for.
-/

namespace InjectionPlan.Context

def registerService (context : Context) (annotated : AnnotatedDeclaration) : Context :=
  let declaration := annotated.declaration
  match annotated.annotations.service with
  | none => context
  | some cardinality =>
    if declaration.exported && declaration.kind.declaresType then
      let name := declaration.qualifiedName
      let registry := context.registry.request name cardinality .annotated
      { context with registry := registry.record (registry.idFor name) declaration.file }
    else context

def registerServices (context : Context) : Context :=
  context.declarations.foldl registerService context

end InjectionPlan.Context
