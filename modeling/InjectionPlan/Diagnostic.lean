import InjectionPlan.Json.Record
import InjectionPlan.Json.Value

/-!
# Diagnostics

A diagnostic reports a condition that leaves out or changes one declaration and lets the
resolution go on.
-/

namespace InjectionPlan

open Json (Value Decoder Record)
open Text (Vocabulary word)

inductive Severity where
  /-- Something was left out or replaced. -/
  | warning
  | info
  deriving DecidableEq

instance : Vocabulary Severity where
  values := [.warning, .info]
  word
    | .warning => "warning"
    | .info => "info"

inductive Condition where
  /-- A factory cannot be called; it is left out. -/
  | unresolvableCallable
  /-- A lifecycle is not known; the default takes its place. -/
  | unknownLifecycle
  /-- A factory produces a type without a token; it is left out. -/
  | unbindableProduct
  /-- A type declaration is marked as a factory; the mark is ignored. -/
  | ignoredTag
  deriving DecidableEq

instance : Vocabulary Condition where
  values := [.unresolvableCallable, .unknownLifecycle, .unbindableProduct, .ignoredTag]
  word
    | .unresolvableCallable => "unresolvable_callable"
    | .unknownLifecycle => "unknown_lifecycle"
    | .unbindableProduct => "unbindable_product"
    | .ignoredTag => "ignored_annotation"

def Condition.code : Condition → String
  | .unresolvableCallable => "DI001"
  | .unknownLifecycle => "DI002"
  | .unbindableProduct => "DI003"
  | .ignoredTag => "DI004"

structure Diagnostic where
  condition : Condition
  severity : Severity
  /-- The qualified name of the declaration. -/
  declaration : String
  file : String
  message : String
  deriving DecidableEq

namespace Diagnostic

def unresolvableCallable (declaration file : String) : Diagnostic where
  condition := .unresolvableCallable
  severity := .warning
  declaration
  file
  message := s!"`{declaration}` has no resolvable call signature; skipped"

def unknownLifecycle (declaration file lifecycle : String) : Diagnostic where
  condition := .unknownLifecycle
  severity := .warning
  declaration
  file
  message := s!"`{declaration}` declares unknown lifecycle `{lifecycle}`; using transient"

def unbindableProduct (declaration file product : String) : Diagnostic where
  condition := .unbindableProduct
  severity := .warning
  declaration
  file
  message := s!"`{declaration}` produces `{product}`, which cannot be bound; skipped"

def ignoredTag (declaration file tag : String) : Diagnostic where
  condition := .ignoredTag
  severity := .info
  declaration
  file
  message := s!"`@{tag}` has no effect on type declaration `{declaration}`"

def line (diagnostic : Diagnostic) : String :=
  let code := diagnostic.condition.code
  let severity := word diagnostic.severity
  s!"[{code}] {severity} ({diagnostic.file}): {diagnostic.message}"

def encode (diagnostic : Diagnostic) : Value :=
  .object [("kind", .string (word diagnostic.condition)),
    ("severity", .string (word diagnostic.severity)),
    ("declaration", .string diagnostic.declaration), ("file", .string diagnostic.file),
    ("message", .string diagnostic.message)]

def decode : Decoder Diagnostic := Record.exact <|
  Diagnostic.mk <$> .required "kind" (.choice .null) <*> .required "severity" (.choice .null) <*>
    .required "declaration" .text <*> .required "file" .text <*> .required "message" .text

end Diagnostic

end InjectionPlan
