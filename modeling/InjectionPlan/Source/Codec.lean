import InjectionPlan.Json.Reader
import InjectionPlan.Json.Record
import InjectionPlan.Json.Writer
import InjectionPlan.Source.Snapshot

/-!
# Snapshots as JSON

How each part of a snapshot is written and read. Empty lists and missing values are not
written, apart from the members that every declaration has.
-/

namespace InjectionPlan

open Json (Value Decoder Record)
open Text (word)

namespace TypeId

def encode (ty : TypeId) : Value := .number ty.index

def decode : Decoder TypeId := fun tree => (Decoder.word tree).map TypeId.mk

end TypeId

namespace TypeSymbol

def encode (symbol : TypeSymbol) : Value :=
  .object <|
    [("name", .string symbol.name), ("kind", .string (word symbol.kind))] ++
      Value.optionMember "file" .string symbol.file

def decode : Decoder TypeSymbol := Record.exact <|
  TypeSymbol.mk <$> .required "name" .text <*> .required "kind" (.choice .null) <*>
    .optional "file" .text

end TypeSymbol

namespace Parameter

def encode (parameter : Parameter) : Value :=
  .object [("name", .string parameter.name), ("type", parameter.type.encode)]

def decode : Decoder Parameter := Record.exact <|
  Parameter.mk <$> .required "name" .text <*> .required "type" TypeId.decode

end Parameter

namespace Signature

def encode (signature : Signature) : Value :=
  .object [("parameters", .list Parameter.encode signature.parameters),
    ("returns", signature.returns.encode)]

def decode : Decoder Signature := Record.exact <|
  Signature.mk <$> .defaulted "parameters" [] (.list Parameter.decode) <*>
    .required "returns" TypeId.decode

end Signature

namespace TypeEntry

def encode (entry : TypeEntry) : Value :=
  .object <|
    [("text", .string entry.text)] ++
      Value.optionMember "symbol" TypeSymbol.encode entry.symbol ++
      Value.listMember "arguments" TypeId.encode entry.arguments ++
      Value.listMember "bases" TypeId.encode entry.bases ++
      Value.listMember "signatures" Signature.encode entry.signatures

def decode : Decoder TypeEntry := Record.exact <|
  TypeEntry.mk <$> .required "text" .text <*> .optional "symbol" TypeSymbol.decode <*>
    .defaulted "arguments" [] (.list TypeId.decode) <*>
    .defaulted "bases" [] (.list TypeId.decode) <*>
    .defaulted "signatures" [] (.list Signature.decode)

end TypeEntry

namespace Tag

def encode (tag : Tag) : Value :=
  .object <| [("tag", .string tag.name)] ++ Value.optionMember "text" .string tag.text

def decode : Decoder Tag := Record.exact <|
  Tag.mk <$> .required "tag" .text <*> .optional "text" .text

end Tag

namespace Declaration

def encode (declaration : Declaration) : Value :=
  .object <|
    [("name", .string declaration.name)] ++
      Value.optionMember "namespace" .string declaration.scope ++
      [("kind", .string (word declaration.kind)), ("exported", .bool declaration.exported),
        ("file", .string declaration.file), ("annotations", .list Tag.encode declaration.tags),
        ("type", declaration.type.encode)] ++
      Value.optionMember "aliased" TypeId.encode declaration.aliased ++
      Value.listMember "parameters" Parameter.encode declaration.parameters

def decode : Decoder Declaration := Record.exact <|
  Declaration.mk <$> .required "name" .text <*> .optional "namespace" .text <*>
    .required "kind" (.choice .null) <*> .defaulted "exported" true .bool <*>
    .defaulted "file" "" .text <*> .defaulted "annotations" [] (.list Tag.decode) <*>
    .required "type" TypeId.decode <*> .optional "aliased" TypeId.decode <*>
    .defaulted "parameters" [] (.list Parameter.decode)

end Declaration

namespace Snapshot

def encode (snapshot : Snapshot) : Value :=
  .object [("types", .list TypeEntry.encode snapshot.types),
    ("declarations", .list Declaration.encode snapshot.declarations)]

def decode : Decoder Snapshot := Record.exact <|
  Snapshot.mk <$> .defaulted "types" [] (.list TypeEntry.decode) <*>
    .defaulted "declarations" [] (.list Declaration.decode)

def render (snapshot : Snapshot) : String := snapshot.encode.compact

inductive ReadError where
  | json (fault : Json.Fault)
  | invalid (error : SnapshotError)
  deriving DecidableEq

def ofText (text : String) : Except ReadError Snapshot := do
  let snapshot ← (Json.decodeText decode text).mapError .json
  snapshot.validate.mapError .invalid

end Snapshot

end InjectionPlan
