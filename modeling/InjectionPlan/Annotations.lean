import InjectionPlan.Source.Codec
import InjectionPlan.Text.Case
import InjectionPlan.Token

/-!
# Annotations

Before anything is resolved, the tags of a declaration are read into a record of what they
mean. Each tag has its meaning alone; of several meanings of one field the first counts.
-/

namespace InjectionPlan

open Json (Value Decoder Record)
open Text (Vocabulary word)

inductive Lifecycle where
  /-- A new instance for every use. -/
  | transient
  /-- One instance per container. -/
  | singleton
  /-- One instance per scope. -/
  | scoped
  deriving DecidableEq, Inhabited

instance : Vocabulary Lifecycle where
  values := [.transient, .singleton, .scoped]
  word
    | .transient => "transient"
    | .singleton => "singleton"
    | .scoped => "scoped"

/-- The lifecycle of a name in any case, with blanks around it. -/
def Lifecycle.ofText? (text : String) : Option Lifecycle :=
  Text.ofWord? Lifecycle (Text.lower (Text.trim text))

/-- The names of the tags that have a meaning. -/
structure TagNames where
  service : String := "service"
  /-- The word after a service tag that asks for any number of implementations. -/
  multiKeyword : String := "multi"
  injectable : String := "injectable"
  lifecycle : String := "lifecycle"
  module : String := "module"
  deriving DecidableEq

namespace TagNames

def encode (names : TagNames) : Value :=
  .object [("service", .string names.service), ("multi_keyword", .string names.multiKeyword),
    ("injectable", .string names.injectable), ("lifecycle", .string names.lifecycle),
    ("module", .string names.module)]

def record : Record TagNames :=
  TagNames.mk <$> .defaulted "service" "service" .text <*>
    .defaulted "multi_keyword" "multi" .text <*>
    .defaulted "injectable" "injectable" .text <*>
    .defaulted "lifecycle" "lifecycle" .text <*> .defaulted "module" "module" .text

def decode (surplus : Record.Surplus) : Decoder TagNames := record.decode surplus

end TagNames

inductive AnnotationKind where
  | service
  | injectable
  | lifecycle
  | module
  deriving DecidableEq

instance : Vocabulary AnnotationKind where
  values := [.service, .injectable, .lifecycle, .module]
  word
    | .service => "service"
    | .injectable => "injectable"
    | .lifecycle => "lifecycle"
    | .module => "module"

structure AnnotationEntry where
  kind : AnnotationKind
  payload : Option String
  deriving DecidableEq

/-- What the tags of a declaration mean. -/
structure Annotations where
  entries : List AnnotationEntry := []
  service : Option Cardinality := none
  injectable : Bool := false
  lifecycle : Option Lifecycle := none
  /-- The text of a lifecycle tag that names no lifecycle. -/
  invalidLifecycle : Option String := none
  module : Option String := none
  deriving DecidableEq

/-- The text behind a tag without blanks around it, if anything is left. -/
def Tag.payload? (tag : Tag) : Option String := tag.text.bind Text.nonBlank?

/-- The name of a tag without blanks around it and without markers before it. -/
def Tag.bareName (tag : Tag) : String :=
  String.ofList ((Text.trimChars tag.name.toList).dropWhile (· == '@'))

namespace Annotations

def has (annotations : Annotations) (kind : AnnotationKind) : Bool :=
  annotations.entries.any fun entry => entry.kind == kind

def cardinality (names : TagNames) (payload : Option String) : Cardinality :=
  match payload.bind Text.firstWord? with
  | some first => if Text.sameButCase first names.multiKeyword then .multi else .single
  | none => .single

/-- The annotations with the meaning of one more tag. A field that is set stays as it is. A
lifecycle tag that names no lifecycle leaves its text; a module tag without a name means
nothing. -/
def absorb (names : TagNames) (known : Annotations) (tag : Tag) : Annotations :=
  let name := tag.bareName
  let payload := tag.payload?
  let named := payload.bind Lifecycle.ofText?
  let noted (kind : AnnotationKind) : List AnnotationEntry := known.entries ++ [⟨kind, payload⟩]
  if name = names.service then
    { known with
      entries := noted .service
      service := known.service <|> some (cardinality names payload) }
  else if name = names.injectable then
    { known with
      entries := noted .injectable
      injectable := true
      lifecycle := known.lifecycle <|> named }
  else if name = names.lifecycle then
    match named with
    | some lifecycle =>
      { known with
        entries := noted .lifecycle
        lifecycle := known.lifecycle <|> some lifecycle }
    | none =>
      { known with
        entries := noted .lifecycle
        invalidLifecycle := known.invalidLifecycle <|> some (payload.getD "") }
  else match Lifecycle.ofText? name with
    | some lifecycle =>
      { known with
        entries := noted .lifecycle
        lifecycle := known.lifecycle <|> some lifecycle }
    | none =>
      if name = names.module then
        match payload with
        | some module =>
          { known with
            entries := noted .module
            module := known.module <|> some module }
        | none => known
      else known

def ofTags (names : TagNames) (tags : List Tag) : Annotations :=
  tags.foldl (absorb names) {}

end Annotations

end InjectionPlan
