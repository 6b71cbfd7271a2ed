import InjectionPlan.Resolution.Context
import InjectionPlan.Resolution.TokenGraph

/-!
# Order of emission and bindings

The last two things a plan needs: the order of its tokens, and what each factory is bound to in
its module.
-/

namespace InjectionPlan.Context

def orderTokens (context : Context) : Except ResolveError Context := do
  let order ← (TokenGraph.ofRegistry context.registry context.metadata).order
  pure { context with order }

/-- Binds a factory in its module. -/
def bindFactory (context : Context) (resolved : ResolvedFactory) : Context :=
  let factory := resolved.factory
  let binding : Binding := ⟨factory.target, factory.name⟩
  { context with
    modules := context.modules.insert factory.module
      (context.bindings factory.module ++ [binding])
    targets := context.targets ++ [factory.target] }

def bindFactories (context : Context) : Context :=
  context.factories.foldl bindFactory context

end InjectionPlan.Context
