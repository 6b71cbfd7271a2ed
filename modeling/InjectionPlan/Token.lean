import InjectionPlan.Json.Record
import InjectionPlan.Json.Value

/-!
# Tokens

A token is the key under which one named type is injected. Its id is the display name with a
suffix, so a display name has one id for a whole run.
-/

namespace InjectionPlan

open Json (Value Decoder Record)
open Text (Vocabulary word)

/-- The text by which a token is known. -/
structure TokenId where
  text : String
  deriving DecidableEq, Inhabited

namespace TokenId

def derive (displayName suffix : String) : TokenId := ⟨displayName ++ suffix⟩

def encode (id : TokenId) : Value := .string id.text

def decode : Decoder TokenId := fun tree => (Decoder.text tree).map TokenId.mk

end TokenId

inductive Cardinality where
  /-- One implementation binds the token. -/
  | single
  /-- Every implementation gets a token of its own. -/
  | multi
  deriving DecidableEq, Inhabited

instance : Vocabulary Cardinality where
  values := [.single, .multi]
  word
    | .single => "single"
    | .multi => "multi"

inductive Origin where
  /-- A declaration is annotated as a service. -/
  | annotated
  /-- A declaration aliases or extends a type that has a token. -/
  | autoDetected
  /-- A type is needed as a parameter, as a product or as a generic argument. -/
  | implicit
  /-- An implementation of a multi service needs a token of its own. -/
  | factory
  deriving DecidableEq, Inhabited

instance : Vocabulary Origin where
  values := [.annotated, .autoDetected, .implicit, .factory]
  word
    | .annotated => "annotated"
    | .autoDetected => "auto_detected"
    | .implicit => "implicit"
    | .factory => "factory"

/-- The key of a named type. -/
structure Token where
  id : TokenId
  displayName : String
  cardinality : Cardinality
  deriving DecidableEq

namespace Token

def mint (displayName suffix : String) (cardinality : Cardinality) : Token :=
  ⟨.derive displayName suffix, displayName, cardinality⟩

def isMulti (token : Token) : Bool := token.cardinality == .multi

def members (token : Token) : List (String × Value) :=
  [("id", token.id.encode), ("display_name", .string token.displayName),
    ("cardinality", .string (word token.cardinality))]

def encode (token : Token) : Value := .object token.members

def record (nothing : Decoder.Nothing) : Record Token :=
  Token.mk <$> .required "id" TokenId.decode <*> .required "display_name" .text <*>
    .required "cardinality" (.choice nothing)

end Token

theorem ofWord?_cardinality (c : Cardinality) : Text.ofWord? Cardinality (word c) = some c := by
  cases c <;> decide

end InjectionPlan
