import InjectionPlan.Json.Tree
import InjectionPlan.Text.Hex

/-!
# Reading a JSON text

Characters are read into a `Tree` from left to right. Every reader of a part also answers what
is left of the text, or nothing when the text cannot be read on; the tree then ends at that
place.
-/

namespace InjectionPlan.Json

/-- The blanks that JSON allows between its parts. -/
def isSpace (c : Char) : Bool := c == ' ' || c == '\t' || c == '\n' || c == '\r'

def skipSpace (cs : List Char) : List Char := cs.dropWhile isSpace

namespace Reader

/-- A tree and what is left of the text, or nothing when reading broke off. -/
abbrev Result := Tree × Option (List Char)

def escaped? : Char → Option Char
  | '"' => some '"'
  | '\\' => some '\\'
  | '/' => some '/'
  | 'b' => some '\x08'
  | 'f' => some '\x0c'
  | 'n' => some '\n'
  | 'r' => some '\r'
  | 't' => some '\t'
  | _ => none

/-- The characters and escapes up to the closing quote, and the text after it or the fault that
ends the string. An escape with fewer than four bytes left ends the text. -/
def units : List Char → List CodeUnit × Except Fault (List Char)
  | [] => ([], .error .truncated)
  | '"' :: rest => ([], .ok rest)
  | ['\\'] => ([], .error .truncated)
  | '\\' :: 'u' :: a :: b :: c :: d :: rest =>
    match Text.hexNumber? [a, b, c, d] with
    | some code => let (us, ending) := units rest; (.escaped code :: us, ending)
    | none => ([], .error .malformed)
  | '\\' :: 'u' :: rest =>
    ([], .error (if (String.ofList rest).utf8ByteSize < 4 then .truncated else .malformed))
  | '\\' :: c :: rest =>
    match escaped? c with
    | some c => let (us, ending) := units rest; (.char c :: us, ending)
    | none => ([], .error .malformed)
  | c :: rest =>
    if c.toNat < 0x20 then ([], .error .malformed)
    else let (us, ending) := units rest; (.char c :: us, ending)

/-- A string whose opening quote has been read. -/
def string (cs : List Char) : Result :=
  match units cs with
  | (us, .ok rest) => (.string us, some rest)
  | (us, .error fault) => (.broken ⟨CodeUnit.brokenFault fault us, fault⟩, none)

def constant (value : Tree) : List Char → List Char → Result
  | [], rest => (value, some rest)
  | _ :: _, [] => (.brokenWord (.both .truncated), none)
  | expected :: name, c :: rest =>
    if c = expected then constant value name rest else (.brokenWord (.both .malformed), none)

/-- A number that lacks a digit before `rest`. A reader that wants the number asks for more
text when there is none. -/
def digitMissing (rest : List Char) : Result :=
  (.brokenWord ⟨if rest.isEmpty then .truncated else .malformed, .malformed⟩, none)

def exponent (negative : Bool) (whole fraction cs : List Char) : Result :=
  let digits (minus : Bool) (cs : List Char) : Result :=
    match cs.takeWhile Char.isDigit with
    | [] => digitMissing cs
    | ds =>
      (.number ⟨negative, whole, fraction, some (minus, ds)⟩, some (cs.dropWhile Char.isDigit))
  let signed : List Char → Result
    | '-' :: rest => digits true rest
    | '+' :: rest => digits false rest
    | rest => digits false rest
  match cs with
  | 'e' :: rest => signed rest
  | 'E' :: rest => signed rest
  | rest => (.number ⟨negative, whole, fraction, none⟩, some rest)

def fraction (negative : Bool) (whole : List Char) : List Char → Result
  | '.' :: rest =>
    match rest.takeWhile Char.isDigit with
    | [] => digitMissing rest
    | digits => exponent negative whole digits (rest.dropWhile Char.isDigit)
  | rest => exponent negative whole [] rest

/-- A number whose sign has been read. A leading zero stands alone. -/
def number (negative : Bool) : List Char → Result
  | '0' :: rest =>
    match rest with
    | [] => fraction negative ['0'] []
    | c :: _ =>
      if c.isDigit then (.brokenWord (.both .malformed), none) else fraction negative ['0'] rest
  | cs =>
    match cs.takeWhile Char.isDigit with
    | [] => digitMissing cs
    | digits => fraction negative digits (cs.dropWhile Char.isDigit)

def scalar : List Char → Result
  | [] => (.broken (.both .truncated), none)
  | '"' :: rest => string rest
  | 'n' :: rest => constant .null ['u', 'l', 'l'] rest
  | 't' :: rest => constant (.bool true) ['r', 'u', 'e'] rest
  | 'f' :: rest => constant (.bool false) ['a', 'l', 's', 'e'] rest
  | '-' :: rest => number true rest
  | c :: rest => if c.isDigit then number false (c :: rest) else (.broken (.both .malformed), none)

mutual

/-- The value that the text begins with. The fuel bounds the number of parts. -/
def value : Nat → List Char → Result
  | 0, _ => (.broken (.both .truncated), none)
  | fuel + 1, cs =>
    match skipSpace cs with
    | '[' :: rest =>
      match skipSpace rest with
      | [] => (.array [] (some .truncated), none)
      | ']' :: rest => (.array [] none, some rest)
      | rest =>
        let (ts, cut, rest) := items fuel rest
        (.array ts cut, rest)
    | '{' :: rest =>
      match skipSpace rest with
      | [] => (.object [] (some .truncated), none)
      | '}' :: rest => (.object [] none, some rest)
      | rest =>
        let (ms, cut, rest) := members fuel rest
        (.object ms cut, rest)
    | cs => scalar cs

def items : Nat → List Char → List Tree × Option Fault × Option (List Char)
  | 0, _ => ([], some .truncated, none)
  | fuel + 1, cs =>
    match value fuel cs with
    | (item, none) => ([item], none, none)
    | (item, some rest) =>
      match skipSpace rest with
      | [] => ([item], some .truncated, none)
      | ']' :: rest => ([item], none, some rest)
      | ',' :: rest =>
        let (ts, cut, rest) := items fuel rest
        (item :: ts, cut, rest)
      | _ => ([item], some .malformed, none)

def members : Nat → List Char → List (Tree × Tree) × Option Fault × Option (List Char)
  | 0, _ => ([], some .truncated, none)
  | fuel + 1, cs =>
    match value fuel cs with
    | (.string units, some rest) =>
      let key := Tree.string units
      match skipSpace rest with
      | [] => ([(key, .broken (.both .truncated))], none, none)
      | ':' :: rest =>
        match value fuel rest with
        | (member, none) => ([(key, member)], none, none)
        | (member, some rest) =>
          match skipSpace rest with
          | [] => ([(key, member)], some .truncated, none)
          | '}' :: rest => ([(key, member)], none, some rest)
          | ',' :: rest =>
            let (ms, cut, rest) := members fuel rest
            ((key, member) :: ms, cut, rest)
          | _ => ([(key, member)], some .malformed, none)
      | _ => ([(key, .broken (.both .malformed))], none, none)
    | (key, _) => ([(key, .broken (.both .malformed))], none, none)

end

end Reader

/-- A text that holds one value: the value, and whether nothing but blanks follows it. -/
structure Document where
  root : Tree
  complete : Bool

/-- The value of a text. Every part takes a character at least, which bounds the fuel. -/
def Document.read (text : String) : Document :=
  let cs := text.toList
  match Reader.value (2 * cs.length + 2) cs with
  | (root, none) => ⟨root, true⟩
  | (root, some rest) => ⟨root, (skipSpace rest).isEmpty⟩

/-- The value that `decode` finds in the text. What follows the value is looked at last. -/
def decodeText {α : Type} (decode : Tree → Except Fault α) (text : String) : Except Fault α := do
  let document := Document.read text
  let a ← decode document.root
  if document.complete then pure a else throw .malformed

end InjectionPlan.Json
