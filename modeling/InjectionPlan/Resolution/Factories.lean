import InjectionPlan.Resolution.Context
import InjectionPlan.TypeKey

/-!
# Factories of a code base

Every exported declaration with a factory tag becomes a factory, in order of discovery. A class
is called by its constructor, a function or a variable by its first signature. All types of a
declaration are looked at before any token of it is minted.
-/

namespace InjectionPlan

inductive CallShape where
  | callable (kind : FactoryKind) (parameters : List Parameter) (product : TypeId)
  /-- A function or variable without a signature. -/
  | uncallable
  /-- A declaration of nothing but a type. -/
  | typeOnly

namespace Oracle

def callShape (oracle : Oracle) (declaration : Declaration) : CallShape :=
  match declaration.kind with
  | .classType => .callable .classType declaration.parameters declaration.type
  | .function | .variable =>
    match oracle.signatures declaration.type with
    | signature :: _ => .callable .function signature.parameters signature.returns
    | [] => .uncallable
  | .interface | .typeAlias => .typeOnly

end Oracle

namespace Context

/-- Requests the token of a type that is needed by its name, with the file that declares it. -/
def requestNeeded (context : Context) (name : String) (ty : TypeId) : Context :=
  let registry := context.registry.request name .single .implicit
  { context with
    registry := registry.record? (registry.idFor name) (context.oracle.declaringFile? ty) }

/-- Requests the tokens of the parameters that have a name, and lists their ids. -/
def requestDeps (context : Context) : List (Parameter × TypeKey) → Context × List TokenId
  | [] => (context, [])
  | (parameter, .named name) :: rest =>
    let next := context.requestNeeded name parameter.type
    let (last, ids) := next.requestDeps rest
    (last, context.registry.idFor name :: ids)
  | _ :: rest => context.requestDeps rest

def requestOwn (context : Context) (declaration : Declaration) : Context :=
  let name := declaration.qualifiedName
  let registry := context.registry.request name .single .factory
  { context with registry := registry.record (registry.idFor name) declaration.file }

/-- The lifecycle of a factory, transient unless a tag names one. -/
def lifecycleOf (annotations : Annotations) : Lifecycle :=
  annotations.lifecycle.getD .transient

/-- Reports a lifecycle tag that names no lifecycle, if no other tag names one. -/
def reportLifecycle (context : Context) (annotated : AnnotatedDeclaration) : Context :=
  let declaration := annotated.declaration
  match annotated.annotations.lifecycle, annotated.annotations.invalidLifecycle with
  | none, some text =>
    context.report (.unknownLifecycle declaration.qualifiedName declaration.file text)
  | _, _ => context

/-- Adds a factory whose types all have keys. -/
def addFactory (context : Context) (annotated : AnnotatedDeclaration) (kind : FactoryKind)
    (parameters : List (Parameter × TypeKey)) (product : String) (productType : TypeId) :
    Context :=
  let declaration := annotated.declaration
  let name := declaration.qualifiedName
  let (context, deps) := context.requestDeps parameters
  let multi := (context.registry.get? product).any fun minted => minted.cardinality == .multi
  let context := context.requestNeeded product productType
  let context := if multi then context.requestOwn declaration else context
  let context := context.reportLifecycle annotated
  let factory : Factory := {
    name
    kind
    file := declaration.file
    deps
    product
    productToken := context.registry.idFor product
    ownToken := context.registry.idFor name
    multi
    lifecycle := lifecycleOf annotated.annotations
    module := annotated.annotations.module.getD context.settings.defaultModule }
  { context with factories := context.factories ++ [⟨factory, productType⟩] }

/-- Makes a factory of a declaration, or reports why it is none. -/
def resolveFactory (context : Context) (annotated : AnnotatedDeclaration) :
    Except ResolveError Context :=
  let declaration := annotated.declaration
  let name := declaration.qualifiedName
  if annotated.annotations.injectable && declaration.exported then
    match context.oracle.callShape declaration with
    | .uncallable => .ok (context.report (.unresolvableCallable name declaration.file))
    | .typeOnly =>
      let tag := context.settings.tagNames.injectable
      .ok (context.report (.ignoredTag name declaration.file tag))
    | .callable kind parameters productType => do
      let productKey ← context.oracle.requireKey name productType
      let keys ← parameters.mapM fun parameter => context.oracle.requireKey name parameter.type
      match productKey with
      | .named product =>
        pure (context.addFactory annotated kind (parameters.zip keys) product productType)
      | _ =>
        let text := context.oracle.text productType
        pure (context.report (.unbindableProduct name declaration.file text))
  else .ok context

def resolveFactories (context : Context) : Except ResolveError Context :=
  context.declarations.foldlM resolveFactory context

end Context

end InjectionPlan
