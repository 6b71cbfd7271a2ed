import InjectionPlan.Json.Tree
import InjectionPlan.Text.Vocabulary

/-!
# Values wanted of a JSON tree

A decoder looks for one shape of value in a tree and otherwise answers the first fault that a
reader of the text meets.
-/

namespace InjectionPlan.Json

open Text (Vocabulary ofWord?)

abbrev Decoder (α : Type) := Tree → Except Fault α

namespace Decoder

def check : Option Fault → Except Fault Unit
  | none => .ok ()
  | some fault => .error fault

/-- A string without lone halves of surrogate pairs. -/
def text : Decoder String
  | .string units => match Tree.text? units with
    | some s => .ok s
    | none => .error .malformed
  | tree => .error tree.shapeFault

def bool : Decoder Bool
  | .bool b => .ok b
  | tree => .error tree.shapeFault

def word : Decoder UInt32
  | .number literal => match literal.word? with
    | some w => .ok w
    | none => .error (Tree.number literal).shapeFault
  | tree => .error tree.shapeFault

def optional {α : Type} (decode : Decoder α) : Decoder (Option α)
  | .null => .ok none
  | tree => (decode tree).map some

def list {α : Type} (decode : Decoder α) : Decoder (List α)
  | .array items cut => do
    let values ← items.mapM decode
    check cut
    pure values
  | tree => .error tree.shapeFault

/-- The readable keys from the start of an object on, and the fault of the first key that is
not readable. -/
def readableKeys : List (Tree × Tree) → Option Fault → List (String × Tree) × Option Fault
  | [], cut => ([], cut)
  | (.string units, value) :: rest, cut =>
    match Tree.text? units with
    | some key => let (members, cut) := readableKeys rest cut; ((key, value) :: members, cut)
    | none => ([], some .malformed)
  | (key, _) :: _, _ => ([], some key.keyFault)

/-- The members of an object in text order, whatever their keys. -/
def members {α : Type} (decode : Decoder α) : Decoder (List (String × α))
  | .object entries cut => do
    let (readable, cut) := readableKeys entries cut
    let values ← readable.mapM fun (key, tree) => (decode tree).map fun a => (key, a)
    check cut
    pure values
  | tree => .error tree.shapeFault

def wordOf (α : Type) [Vocabulary α] (s : String) : Except Fault α :=
  match ofWord? α s with
  | some a => .ok a
  | none => .error .mismatch

/-- The values that may stand where a word is mapped to nothing. -/
inductive Nothing where
  | null
  | nullOrEmpty
  deriving DecidableEq

def Nothing.admits : Nothing → Tree → Bool
  | _, .null => true
  | .nullOrEmpty, .object [] none => true
  | _, _ => false

/-- A value of a finite choice: its word, or an object that maps the word to nothing. -/
def choice (nothing : Nothing) {α : Type} [Vocabulary α] : Decoder α
  | .string units => do wordOf α (← text (.string units))
  | .object [] none => .error .malformed
  | .object [] (some fault) => .error fault
  | .object ((.string units, value) :: rest) cut => do
    let a ← wordOf α (← text (.string units))
    if nothing.admits value then
      if rest.isEmpty then check cut else throw .malformed
    else throw value.shapeFault
    pure a
  | .object ((key, _) :: _) _ => .error key.keyFault
  | .broken stop => .error stop.wanted
  | _ => .error .malformed

end Decoder

end InjectionPlan.Json
