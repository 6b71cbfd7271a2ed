import InjectionPlan.Diagnostic
import InjectionPlan.Factory
import InjectionPlan.Table

/-!
# Injection plans

The plan is the whole result of a resolution: tokens in the order in which they can be emitted,
factories, their bindings per module, the files that tokens are imported from, and what was
reported on the way.
-/

namespace InjectionPlan

structure PlannedToken where
  token : Token
  origin : Origin
  metadata : Metadata
  deriving DecidableEq

structure PlannedFactory where
  factory : Factory
  target : TokenId
  deriving DecidableEq

structure Binding where
  token : TokenId
  /-- The qualified name of the factory. -/
  factory : String
  deriving DecidableEq

structure ModulePlan where
  name : String
  bindings : List Binding
  deriving DecidableEq

structure Plan where
  /-- Every token after the tokens that it refers to. -/
  tokens : List PlannedToken
  /-- The factories in the order of discovery. -/
  factories : List PlannedFactory
  /-- The modules in the order in which factories name them first. -/
  modules : List ModulePlan
  imports : Table TokenId String
  diagnostics : List Diagnostic
  deriving DecidableEq

namespace Plan

def token? (plan : Plan) (id : TokenId) : Option PlannedToken :=
  plan.tokens.find? fun planned => planned.token.id = id

def position? (plan : Plan) (id : TokenId) : Option Nat :=
  plan.tokens.findIdx? fun planned => planned.token.id = id

def factory? (plan : Plan) (name : String) : Option PlannedFactory :=
  plan.factories.find? fun planned => planned.factory.name = name

def module? (plan : Plan) (name : String) : Option ModulePlan :=
  plan.modules.find? fun module => module.name = name

def bindingCount (plan : Plan) : Nat := (plan.modules.flatMap ModulePlan.bindings).length

end Plan

end InjectionPlan
