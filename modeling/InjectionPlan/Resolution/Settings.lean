import InjectionPlan.Annotations

/-!
# Settings of a resolution

What a resolution can be told: the suffix of ids, the module of factories that name none, and
the names of tags.
-/

namespace InjectionPlan

open Json (Value Decoder Record)

structure Settings where
  /-- The module of a factory without a module tag. -/
  defaultModule : String := "default"
  /-- What follows a display name in an id. -/
  tokenSuffix : String := "Token"
  tagNames : TagNames := {}
  deriving DecidableEq

namespace Settings

def encode (settings : Settings) : Value :=
  .object [("default_module", .string settings.defaultModule),
    ("token_suffix", .string settings.tokenSuffix), ("annotations", settings.tagNames.encode)]

def record (surplus : Record.Surplus) : Record Settings :=
  Settings.mk <$> .defaulted "default_module" "default" .text <*>
    .defaulted "token_suffix" "Token" .text <*>
    .defaulted "annotations" {} (TagNames.decode surplus)

def decode (surplus : Record.Surplus) : Decoder Settings := (record surplus).decode surplus

end Settings

end InjectionPlan
