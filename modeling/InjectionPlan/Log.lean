import InjectionPlan.Config.Basic
import InjectionPlan.Json.Writer

/-!
# Log events

A run tells what it does in events. An event is shown as one line of text or as a JSON object.
-/

namespace InjectionPlan

open Json (Value)

inductive EventField where
  | count (n : Nat)
  /-- A text that stands as it is in a line. -/
  | text (value : String)
  /-- A word that stands between quotes in a line. -/
  | quoted (word : String)
  deriving DecidableEq

namespace EventField

def shown : EventField → String
  | .count n => toString n
  | .text value => value
  | .quoted word => "\"" ++ word ++ "\""

def encode : EventField → Value
  | .count n => .number n
  | .text value => .string value
  | .quoted word => .string word

end EventField

inductive Component where
  | logging
  | snapshots
  | resolution
  | diagnostics
  | plans
  | run
  deriving DecidableEq

def Component.path : Component → String
  | .logging => "diwire_infrastructure::logging"
  | .snapshots => "diwire_infrastructure::snapshot"
  | .resolution => "diwire_resolver::pipeline"
  | .diagnostics => "diwire_infrastructure::diagnostics"
  | .plans => "diwire_infrastructure::report"
  | .run => "diwire::run"

structure Event where
  component : Component
  level : LogLevel
  message : String
  fields : List (String × EventField) := []
  deriving DecidableEq

namespace Event

/-- The control characters that every terminal acts on. -/
def terminalControls : List Char := ['\x07', '\x08', '\x0c', '\x1b', '\x7f']

/-- A character of a message in a line of text. Characters that a terminal acts on are shown by
their codes, so that a message cannot change what stands around it. -/
def visible (c : Char) : List Char :=
  let digits := Nat.toDigits 16 c.toNat
  if c ∈ terminalControls then ['\\', 'x'] ++ List.replicate (2 - digits.length) '0' ++ digits
  else if 0x80 ≤ c.toNat ∧ c.toNat ≤ 0x9f then ['\\', 'u', '\x7b'] ++ digits ++ ['\x7d']
  else [c]

/-- The level in a column of five characters. -/
def column (level : LogLevel) : String :=
  String.ofList (List.replicate (5 - level.label.length) ' ') ++ level.label

def line (event : Event) : String :=
  let message := String.ofList (event.message.toList.flatMap visible)
  let fields := event.fields.map fun (name, field) => " " ++ name ++ "=" ++ field.shown
  column event.level ++ " " ++ message ++ String.join fields

def encode (event : Event) : Value :=
  let fields := event.fields.map fun (name, field) => (name, field.encode)
  .object [("level", .string event.level.label),
    ("fields", .object (("message", .string event.message) :: fields))]

def render (json : Bool) (event : Event) : String :=
  if json then event.encode.compact else event.line

end Event

end InjectionPlan
