import InjectionPlan.Json.Value

/-!
# Writing JSON

A value is written either on one line without blanks or with two blanks per level of nesting.
In strings only the quote, the backslash and the control characters below a blank are escaped.
-/

namespace InjectionPlan.Json.Value

def hexDigit (n : Nat) : Char := Nat.digitChar n

def escape (c : Char) : List Char :=
  if c = '"' then ['\\', '"']
  else if c = '\\' then ['\\', '\\']
  else if c = '\x08' then ['\\', 'b']
  else if c = '\t' then ['\\', 't']
  else if c = '\n' then ['\\', 'n']
  else if c = '\x0c' then ['\\', 'f']
  else if c = '\r' then ['\\', 'r']
  else if c.toNat < 0x20 then
    ['\\', 'u', '0', '0', hexDigit (c.toNat / 16), hexDigit (c.toNat % 16)]
  else [c]

def quoted (text : String) : List Char := '"' :: (text.toList.flatMap escape ++ ['"'])

/-- The line feed and the blanks that begin a line at a level of nesting. -/
def newline (level : Nat) : List Char := '\n' :: List.replicate (2 * level) ' '

mutual

def compactChars : Value → List Char
  | .null => ['n', 'u', 'l', 'l']
  | .bool true => ['t', 'r', 'u', 'e']
  | .bool false => ['f', 'a', 'l', 's', 'e']
  | .number n => Nat.toDigits 10 n
  | .string text => quoted text
  | .array [] => ['[', ']']
  | .array (item :: rest) => '[' :: (compactChars item ++ compactItems rest)
  | .object [] => ['{', '}']
  | .object ((key, value) :: rest) =>
    '{' :: (quoted key ++ ':' :: (compactChars value ++ compactMembers rest))

/-- The items after the first, and the bracket that closes the list. -/
def compactItems : List Value → List Char
  | [] => [']']
  | item :: rest => ',' :: (compactChars item ++ compactItems rest)

def compactMembers : List (String × Value) → List Char
  | [] => ['}']
  | (key, value) :: rest =>
    ',' :: (quoted key ++ ':' :: (compactChars value ++ compactMembers rest))

end

mutual

/-- The value with one item or member a line, at a level of nesting. -/
def prettyChars : Nat → Value → List Char
  | _, .null => ['n', 'u', 'l', 'l']
  | _, .bool true => ['t', 'r', 'u', 'e']
  | _, .bool false => ['f', 'a', 'l', 's', 'e']
  | _, .number n => Nat.toDigits 10 n
  | _, .string text => quoted text
  | _, .array [] => ['[', ']']
  | level, .array (item :: rest) =>
    '[' :: (newline (level + 1) ++ prettyChars (level + 1) item ++ prettyItems level rest)
  | _, .object [] => ['{', '}']
  | level, .object ((key, value) :: rest) =>
    '{' :: (newline (level + 1) ++ quoted key ++ ':' :: ' ' :: prettyChars (level + 1) value ++
      prettyMembers level rest)

def prettyItems : Nat → List Value → List Char
  | level, [] => newline level ++ [']']
  | level, item :: rest =>
    ',' :: (newline (level + 1) ++ prettyChars (level + 1) item ++ prettyItems level rest)

def prettyMembers : Nat → List (String × Value) → List Char
  | level, [] => newline level ++ ['}']
  | level, (key, value) :: rest =>
    ',' :: (newline (level + 1) ++ quoted key ++ ':' :: ' ' :: prettyChars (level + 1) value ++
      prettyMembers level rest)

end

def compact (value : Value) : String := String.ofList (compactChars value)

def pretty (value : Value) : String := String.ofList (prettyChars 0 value)

end InjectionPlan.Json.Value
