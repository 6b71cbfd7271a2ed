import InjectionPlan.Json.Reader
import InjectionPlan.Json.Writer
import InjectionPlan.Plan

/-!
# Plans as JSON

A planned token and a planned factory are each one flat object: the members of what is planned
and those that the plan adds.
-/

namespace InjectionPlan

open Json (Value Decoder Record)
open Text (word)

/-- The levels of nesting left for a member of a planned token or factory. A text may open 127
containers, and three stand around such a member. -/
def Plan.nestingLeft : Nat := 124

namespace PlannedToken

def encode (planned : PlannedToken) : Value :=
  .object (planned.token.members ++ [("origin", .string (word planned.origin))] ++
    planned.metadata.members)

def decode : Decoder PlannedToken := fun tree => do
  let inner : Record (Token × Metadata) :=
    Prod.mk <$> Token.record .nullOrEmpty <*> Metadata.record
  let outer : Record Origin := .required "origin" (.choice .null)
  let (origin, token, metadata) ← Record.flattened outer inner Plan.nestingLeft tree
  pure ⟨token, origin, metadata⟩

end PlannedToken

namespace PlannedFactory

def encode (planned : PlannedFactory) : Value :=
  .object (planned.factory.members ++ [("target", planned.target.encode)])

def decode : Decoder PlannedFactory := fun tree => do
  let outer : Record TokenId := .required "target" TokenId.decode
  let (target, factory) ←
    Record.flattened outer (Factory.record .nullOrEmpty) Plan.nestingLeft tree
  pure ⟨factory, target⟩

end PlannedFactory

namespace Binding

def encode (binding : Binding) : Value :=
  .object [("token", binding.token.encode), ("factory", .string binding.factory)]

def decode : Decoder Binding := Record.exact <|
  Binding.mk <$> .required "token" TokenId.decode <*> .required "factory" .text

end Binding

namespace ModulePlan

def encode (module : ModulePlan) : Value :=
  .object [("name", .string module.name), ("bindings", .list Binding.encode module.bindings)]

def decode : Decoder ModulePlan := Record.exact <|
  ModulePlan.mk <$> .required "name" .text <*> .required "bindings" (.list Binding.decode)

end ModulePlan

namespace Plan

def encodeImports (imports : Table TokenId String) : Value :=
  .object (imports.entries.map fun (id, file) => (id.text, .string file))

/-- An object of files. A key that comes again keeps its place and takes the last file. -/
def decodeImports : Decoder (Table TokenId String) := fun tree => do
  let files ← Decoder.members .text tree
  pure (Table.ofList (files.map fun (id, file) => (⟨id⟩, file)))

def encode (plan : Plan) : Value :=
  .object [("tokens", .list PlannedToken.encode plan.tokens),
    ("factories", .list PlannedFactory.encode plan.factories),
    ("modules", .list ModulePlan.encode plan.modules),
    ("imports", encodeImports plan.imports),
    ("diagnostics", .list Diagnostic.encode plan.diagnostics)]

def decode : Decoder Plan := Record.exact <|
  Plan.mk <$> .required "tokens" (.list PlannedToken.decode) <*>
    .required "factories" (.list PlannedFactory.decode) <*>
    .required "modules" (.list ModulePlan.decode) <*> .required "imports" decodeImports <*>
    .required "diagnostics" (.list Diagnostic.decode)

/-- The plan as JSON, on one line or indented, with a line feed at the end. -/
def render (pretty : Bool) (plan : Plan) : String :=
  (if pretty then plan.encode.pretty else plan.encode.compact) ++ "\n"

def ofText (text : String) : Except Json.Fault Plan := Json.decodeText decode text

def summarizeModule (module : ModulePlan) : List String :=
  ("module " ++ module.name) :: module.bindings.map fun binding =>
    "  " ++ binding.token.text ++ " <- " ++ binding.factory

def summary (plan : Plan) : List String :=
  [s!"{plan.tokens.length} tokens, {plan.factories.length} factories, " ++
      s!"{plan.modules.length} modules, {plan.diagnostics.length} diagnostics"] ++
    plan.modules.flatMap summarizeModule ++ plan.diagnostics.map Diagnostic.line

def summarize (plan : Plan) : String := String.join (plan.summary.map (· ++ "\n"))

end Plan

end InjectionPlan
