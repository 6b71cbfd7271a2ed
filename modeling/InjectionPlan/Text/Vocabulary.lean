/-!
# Words for the values of a type

A finite choice is written as one word per value. Reading a word finds the value it is
written for.
-/

namespace InjectionPlan.Text

/-- A type whose values are each written as one word. -/
class Vocabulary (α : Type) where
  values : List α
  word : α → String

export Vocabulary (word)

def ofWord? (α : Type) [Vocabulary α] (s : String) : Option α :=
  (Vocabulary.values (α := α)).find? fun a => word a == s

end InjectionPlan.Text
