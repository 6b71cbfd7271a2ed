import InjectionPlan.Distinct
import InjectionPlan.Factory
import InjectionPlan.Registry
import InjectionPlan.TypeKey

/-!
# Walking the types behind a token

The metadata of a token is found by walking the types that its type extends, and the generic
arguments of those that have a token. Arguments mint the tokens they lack. Type graphs may be
cyclic: no type is visited twice, and no argument is expanded twice.

The depth of a walk is bounded by the number of type handles, since every level visits or
expands a type for the first time.
-/

namespace InjectionPlan

/-- Whose metadata is looked for, and the declaration that is blamed for structural types. -/
structure Subject where
  id : TokenId
  declaration : String

structure Walk where
  registry : Registry
  implements : List TokenId := []
  generics : List TokenId := []
  /-- The types whose bases were followed. -/
  visited : List TypeId := []
  /-- The generic arguments whose own arguments were followed. -/
  expanded : List TypeId := []

namespace Walk

def metadata (walk : Walk) : Metadata := ⟨walk.implements, walk.generics⟩

/-- Notes one generic argument: a named type gets a token and is listed, unless it is the
subject itself. -/
def meet (oracle : Oracle) (subject : Subject) (walk : Walk) (argument : TypeId) :
    Except ResolveError Walk := do
  match ← oracle.requireKey subject.declaration argument with
  | .named name =>
    let registry := walk.registry.request name .single .implicit
    let id := registry.idFor name
    let walk := { walk with registry := registry.record? id (oracle.declaringFile? argument) }
    pure (if id = subject.id then walk
      else { walk with generics := appendNew walk.generics id })
  | _ => pure walk

/-- Notes the generic arguments of a type, and theirs. -/
def expand (oracle : Oracle) (subject : Subject) : Nat → Walk → TypeId → Except ResolveError Walk
  | 0, walk, _ => .ok walk
  | depth + 1, walk, ty =>
    let step (walk : Walk) (argument : TypeId) : Except ResolveError Walk := do
      let walk ← walk.meet oracle subject argument
      if argument ∈ walk.expanded then pure walk
      else
        let walk := { walk with expanded := argument :: walk.expanded }
        expand oracle subject depth walk argument
    (oracle.arguments ty).foldlM step walk

/-- As deep as any walk can go. -/
def deepest : Nat := TypeId.count + 1

/-- Notes a type: if its name has a token other than the subject, the subject implements it. -/
def enter (oracle : Oracle) (subject : Subject) (walk : Walk) (ty : TypeId) :
    Except ResolveError Walk :=
  match oracle.named? ty with
  | none => .ok walk
  | some name =>
    let id := walk.registry.idFor name
    if walk.registry.contains name && id ≠ subject.id then
      expand oracle subject deepest
        { walk with implements := appendNew walk.implements id } ty
    else .ok walk

/-- Notes a type and every type that it extends. -/
def visit (oracle : Oracle) (subject : Subject) : Nat → Walk → TypeId → Except ResolveError Walk
  | 0, walk, _ => .ok walk
  | depth + 1, walk, ty =>
    if ty ∈ walk.visited then .ok walk
    else do
      let walk ← enter oracle subject { walk with visited := ty :: walk.visited } ty
      (oracle.bases ty).foldlM (visit oracle subject depth) walk

def follow (oracle : Oracle) (subject : Subject) (walk : Walk) (ty : TypeId) :
    Except ResolveError Walk :=
  visit oracle subject deepest walk ty

/-- The walk over the generic arguments of a type alone. -/
def arguments (oracle : Oracle) (subject : Subject) (registry : Registry) (ty : TypeId) :
    Except ResolveError Walk :=
  expand oracle subject deepest { registry } ty

end Walk

end InjectionPlan
