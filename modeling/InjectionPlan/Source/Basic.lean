import InjectionPlan.Text.Vocabulary

/-!
# Types and declarations of a code base

A front end reports the types it met by opaque handles, and the declarations of the code base
with their annotation tags as they are written.
-/

namespace InjectionPlan

open Text (Vocabulary word)

structure TypeId where
  number : UInt32
  deriving DecidableEq, Inhabited

namespace TypeId

/-- The position of the type in a type table. -/
def index (ty : TypeId) : Nat := ty.number.toNat

def label (ty : TypeId) : String := s!"#{ty.index}"

def count : Nat := UInt32.size

theorem index_lt_count (ty : TypeId) : ty.index < count := ty.number.toNat_lt

theorem index_injective {a b : TypeId} (h : a.index = b.index) : a = b := by
  cases a; cases b
  exact congrArg TypeId.mk (UInt32.toNat_inj.mp h)

end TypeId

inductive SymbolKind where
  | interface
  | classType
  | typeAlias
  | typeParameter
  | enum
  | other
  deriving DecidableEq, Inhabited

instance : Vocabulary SymbolKind where
  values := [.interface, .classType, .typeAlias, .typeParameter, .enum, .other]
  word
    | .interface => "interface"
    | .classType => "class"
    | .typeAlias => "type_alias"
    | .typeParameter => "type_parameter"
    | .enum => "enum"
    | .other => "other"

structure TypeSymbol where
  /-- The name without generic arguments. -/
  name : String
  kind : SymbolKind
  file : Option String
  deriving DecidableEq

/-- A named parameter of a signature or of a constructor. -/
structure Parameter where
  name : String
  type : TypeId
  deriving DecidableEq

structure Signature where
  parameters : List Parameter
  returns : TypeId
  deriving DecidableEq

namespace Signature

def references (signature : Signature) : List TypeId :=
  signature.returns :: signature.parameters.map Parameter.type

end Signature

structure TypeEntry where
  /-- The text of the type, generic arguments included. -/
  text : String
  /-- The name behind the type; anonymous and primitive types have none. -/
  symbol : Option TypeSymbol := none
  arguments : List TypeId := []
  /-- The types that it extends or implements. -/
  bases : List TypeId := []
  signatures : List Signature := []
  deriving DecidableEq

namespace TypeEntry

def references (entry : TypeEntry) : List TypeId :=
  entry.arguments ++ entry.bases ++ entry.signatures.flatMap Signature.references

end TypeEntry

/-- An annotation as it is written: a tag and the text behind it. -/
structure Tag where
  name : String
  text : Option String := none
  deriving DecidableEq

inductive DeclarationKind where
  | interface
  | typeAlias
  | classType
  | function
  | variable
  deriving DecidableEq, Inhabited

instance : Vocabulary DeclarationKind where
  values := [.interface, .typeAlias, .classType, .function, .variable]
  word
    | .interface => "interface"
    | .typeAlias => "type_alias"
    | .classType => "class"
    | .function => "function"
    | .variable => "variable"

namespace DeclarationKind

/-- Interfaces and aliases, which may inherit a token. -/
def isTypeLike : DeclarationKind → Bool
  | .interface | .typeAlias => true
  | _ => false

def declaresType : DeclarationKind → Bool
  | .interface | .typeAlias | .classType => true
  | _ => false

theorem declaresType_of_isTypeLike {kind : DeclarationKind} (h : kind.isTypeLike = true) :
    kind.declaresType = true := by
  cases kind with
  | interface => rfl
  | typeAlias => rfl
  | _ => cases h

end DeclarationKind

/-- A declaration of the code base, at top level or in a namespace. -/
structure Declaration where
  name : String
  /-- The enclosing namespace. -/
  scope : Option String := none
  kind : DeclarationKind
  exported : Bool := true
  file : String := ""
  tags : List Tag := []
  /-- The instance type of a class or interface, the value type of a function or variable. -/
  type : TypeId
  /-- The target of an alias. -/
  aliased : Option TypeId := none
  /-- The parameters of a constructor. -/
  parameters : List Parameter := []
  deriving DecidableEq

namespace Declaration

def qualifiedName (declaration : Declaration) : String :=
  match declaration.scope with
  | some scope => scope ++ "." ++ declaration.name
  | none => declaration.name

/-- The type that is looked at for metadata: what an alias stands for, else the declared type. -/
def subjectType (declaration : Declaration) : TypeId :=
  declaration.aliased.getD declaration.type

def references (declaration : Declaration) : List TypeId :=
  declaration.type :: (declaration.aliased.toList ++ declaration.parameters.map Parameter.type)

def tagged (declaration : Declaration) (name : String) (text : Option String := none) :
    Declaration :=
  { declaration with tags := declaration.tags ++ [⟨name, text⟩] }

end Declaration

end InjectionPlan
