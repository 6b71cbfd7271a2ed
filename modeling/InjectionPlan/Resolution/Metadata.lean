import InjectionPlan.Resolution.Context
import InjectionPlan.Resolution.Walk

/-!
# Metadata of tokens

A factory that shares its product is described by the type it produces. Every other token is
described by what it inherits its being from, and by the type that its name declares. Tokens
minted on the way are described too.
-/

namespace InjectionPlan.Context

/-- Keeps the metadata of a token that refers to any. -/
def describe (context : Context) (id : TokenId) (metadata : Metadata) : Context :=
  if metadata.isEmpty then context
  else { context with metadata := context.metadata.insert id metadata }

/-- Puts a factory at the end, described by its product if it shares it. -/
def describeFactory (context : Context) (resolved : ResolvedFactory) :
    Except ResolveError Context :=
  let factory := resolved.factory
  if factory.multi then do
    let subject : Subject := ⟨factory.ownToken, factory.name⟩
    let walk ← Walk.follow context.oracle subject { registry := context.registry }
      resolved.productType
    let context := { context with registry := walk.registry }
    let context := context.describe factory.ownToken walk.metadata
    let described := { resolved with factory := { factory with metadata := walk.metadata } }
    pure { context with factories := context.factories ++ [described] }
  else .ok { context with factories := context.factories ++ [resolved] }

def describeFactories (context : Context) : Except ResolveError Context :=
  context.factories.foldlM describeFactory { context with factories := [] }

/-- Describes a token, unless it stands for a factory. -/
def describeToken (context : Context) (minted : Minted) : Except ResolveError Context :=
  if minted.origin = .factory then .ok context
  else do
    let id := context.registry.idFor minted.name
    let inherited := (context.derivations.get? id).getD {}
    let walk : Walk := {
      registry := context.registry
      implements := inherited.implements
      generics := inherited.generics }
    let walk ← match context.oracle.declaredType? minted.name with
      | some ty => Walk.follow context.oracle ⟨id, minted.name⟩ walk ty
      | none => pure walk
    let context := { context with registry := walk.registry }
    pure (context.describe id walk.metadata)

/-- Describes the tokens from a position on, at most so many. -/
def describeTokens : Nat → Nat → Context → Except ResolveError Context
  | 0, _, context => .ok context
  | limit + 1, position, context =>
    match context.registry.minted[position]? with
    | none => .ok context
    | some minted => do
      let context ← context.describeToken minted
      describeTokens limit (position + 1) context

/-- Describes the factories and then every token. A token that is minted on the way is the name
of a type, so no more of them are added than there are type handles. -/
def collectMetadata (context : Context) : Except ResolveError Context := do
  let context ← context.describeFactories
  describeTokens (context.registry.size + TypeId.count + 1) 0 context

end InjectionPlan.Context
