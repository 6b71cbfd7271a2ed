/-!
# JSON values

A value as it is written: members keep their order. Numbers are natural numbers, since no
other number is ever written.
-/

namespace InjectionPlan.Json

/-- A JSON value without fractions and negative numbers. -/
inductive Value where
  | null
  | bool (value : Bool)
  | number (value : Nat)
  | string (text : String)
  | array (items : List Value)
  | object (members : List (String × Value))

namespace Value

def ofOption : Option String → Value
  | none => .null
  | some text => .string text

def strings (texts : List String) : Value := .array (texts.map .string)

def list {α : Type} (encode : α → Value) (items : List α) : Value := .array (items.map encode)

/-- The member of a value that may be missing. -/
def optionMember {α : Type} (key : String) (encode : α → Value) :
    Option α → List (String × Value)
  | none => []
  | some a => [(key, encode a)]

/-- The member of a list that is left out when it is empty. -/
def listMember {α : Type} (key : String) (encode : α → Value) :
    List α → List (String × Value)
  | [] => []
  | items => [(key, list encode items)]

end Value

end InjectionPlan.Json
