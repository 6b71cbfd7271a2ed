import InjectionPlan.Resolution.Error
import InjectionPlan.Source.Snapshot
import InjectionPlan.Text.Name

/-!
# Type keys

A type can be asked for by its name. Primitive types and type parameters never carry a token,
and a structural type has no name to be asked for by.
-/

namespace InjectionPlan

/-- What a type is to a place that asks for a token. -/
inductive TypeKey where
  | primitive
  | typeParameter
  /-- A type with a name, which is the display name of its token. -/
  | named (name : String)
  deriving DecidableEq

/-- The types that never carry a token. -/
def primitiveTypes : List String := ["string", "number", "boolean", "any", "void", "unknown"]

/-- The text of a type before its generic arguments, without blanks around it. -/
def bareTypeName (text : String) : String :=
  let chars := Text.trimChars text.toList
  if '<' ∈ chars then String.ofList (Text.dropBlankEnd (chars.takeWhile (· ≠ '<')))
  else String.ofList chars

namespace Oracle

/-- The name of a type, or its text before the generic arguments. -/
def typeName (oracle : Oracle) (ty : TypeId) : String :=
  match oracle.symbol ty with
  | some symbol => symbol.name
  | none => bareTypeName (oracle.text ty)

def declaringFile? (oracle : Oracle) (ty : TypeId) : Option String :=
  (oracle.symbol ty).bind TypeSymbol.file

/-- The key of a type, unless it is structural. -/
def classify (oracle : Oracle) (ty : TypeId) : Option TypeKey :=
  let text := Text.trim (oracle.text ty)
  let ofName (name : String) : Option TypeKey :=
    if Text.isDottedName name then some (.named name) else none
  if text ∈ primitiveTypes then some .primitive
  else match oracle.symbol ty with
    | some symbol =>
      if symbol.kind = .typeParameter then some .typeParameter else ofName symbol.name
    | none => ofName (bareTypeName text)

/-- The display name of a type, if it has one. -/
def named? (oracle : Oracle) (ty : TypeId) : Option String :=
  match oracle.classify ty with
  | some (.named name) => some name
  | _ => none

/-- The key of a type where one is needed in a declaration. -/
def requireKey (oracle : Oracle) (declaration : String) (ty : TypeId) :
    Except ResolveError TypeKey :=
  match oracle.classify ty with
  | some key => .ok key
  | none => .error (.structuralType declaration (oracle.text ty))

end Oracle

end InjectionPlan
