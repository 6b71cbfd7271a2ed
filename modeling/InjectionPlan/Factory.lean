import InjectionPlan.Annotations
import InjectionPlan.Token

/-!
# Factories

A factory is a declaration that produces an instance of the type of a token. A factory is bound
to the token of its product, except where several factories may share the product: then each is
bound to a token of its own.
-/

namespace InjectionPlan

open Json (Value Decoder Record)
open Text (Vocabulary word)

/-- The tokens that a type refers to, each list without repetition in order of discovery. -/
structure Metadata where
  /-- The tokens of the types that it extends or implements. -/
  implements : List TokenId := []
  /-- The tokens of the generic arguments of those types. -/
  generics : List TokenId := []
  deriving DecidableEq

namespace Metadata

def isEmpty (metadata : Metadata) : Bool :=
  metadata.implements.isEmpty && metadata.generics.isEmpty

/-- Every token that is referred to, implemented ones first. -/
def references (metadata : Metadata) : List TokenId := metadata.implements ++ metadata.generics

def members (metadata : Metadata) : List (String × Value) :=
  Value.listMember "implements" TokenId.encode metadata.implements ++
    Value.listMember "generics" TokenId.encode metadata.generics

def encode (metadata : Metadata) : Value := .object metadata.members

def record : Record Metadata :=
  Metadata.mk <$> .defaulted "implements" [] (.list TokenId.decode) <*>
    .defaulted "generics" [] (.list TokenId.decode)

def decode : Decoder Metadata := record.exact

end Metadata

inductive FactoryKind where
  /-- A class, by its constructor. -/
  | classType
  /-- A function, or a variable that can be called. -/
  | function
  deriving DecidableEq

instance : Vocabulary FactoryKind where
  values := [.classType, .function]
  word
    | .classType => "class"
    | .function => "function"

structure Factory where
  name : String
  kind : FactoryKind
  file : String
  /-- The tokens of the parameters that have one, in order. -/
  deps : List TokenId
  product : String
  productToken : TokenId
  /-- The token derived from the name of the factory. -/
  ownToken : TokenId
  /-- The product admits any number of implementations. -/
  multi : Bool
  lifecycle : Lifecycle
  module : String
  metadata : Metadata := {}
  deriving DecidableEq

namespace Factory

/-- The token that the factory is bound to: its own when it shares its product or carries
metadata, else the token of the product. -/
def target (factory : Factory) : TokenId :=
  if factory.multi || !factory.metadata.isEmpty then factory.ownToken else factory.productToken

def members (factory : Factory) : List (String × Value) :=
  [("name", .string factory.name), ("kind", .string (word factory.kind)),
    ("declaring_module_path", .string factory.file),
    ("deps", .list TokenId.encode factory.deps), ("produced_type", .string factory.product),
    ("produced_token", factory.productToken.encode), ("own_token", factory.ownToken.encode),
    ("multi", .bool factory.multi), ("lifecycle", .string (word factory.lifecycle)),
    ("module", .string factory.module), ("metadata", factory.metadata.encode)]

def encode (factory : Factory) : Value := .object factory.members

def record (nothing : Decoder.Nothing) : Record Factory :=
  Factory.mk <$> .required "name" .text <*> .required "kind" (.choice nothing) <*>
    .required "declaring_module_path" .text <*> .required "deps" (.list TokenId.decode) <*>
    .required "produced_type" .text <*> .required "produced_token" TokenId.decode <*>
    .required "own_token" TokenId.decode <*> .required "multi" .bool <*>
    .required "lifecycle" (.choice nothing) <*> .required "module" .text <*>
    .defaulted "metadata" {} Metadata.decode

def decode : Decoder Factory := (record .null).exact

end Factory

end InjectionPlan
