import InjectionPlan.Json.Fault
import InjectionPlan.Json.Number

/-!
# The shape of a JSON text

A text is read once, as generously as any reader would, into a tree that also says where the
reading broke off. A reader that skips a value asks less of it than one that wants it: half of
a surrogate pair, a number out of range and deep nesting matter only where the value is wanted.
Both answers are functions of the tree, so the first fault in text order needs no second
reading.
-/

namespace InjectionPlan.Json

/-- A character of a string, or the code of a `\u` escape. -/
inductive CodeUnit where
  | char (c : Char)
  | escaped (code : Nat)
  deriving DecidableEq

/-- A place where reading breaks off, for a reader that wants the value and for one that skips
it. -/
structure Break where
  wanted : Fault
  skipped : Fault
  deriving DecidableEq

def Break.both (fault : Fault) : Break := ⟨fault, fault⟩

/-- A JSON text as far as it can be read. Containers end where they are closed or where the
reading breaks off. -/
inductive Tree where
  | null
  | bool (value : Bool)
  | number (literal : Number)
  | string (units : List CodeUnit)
  /-- The items, and why the list is not closed. -/
  | array (items : List Tree) (cut : Option Fault)
  /-- Keys and values, and why the object is not closed. A key that is no string is the last. -/
  | object (members : List (Tree × Tree)) (cut : Option Fault)
  /-- No value begins here, or a string breaks off. -/
  | broken (stop : Break)
  /-- A number or the name of a constant breaks off. -/
  | brokenWord (stop : Break)

namespace CodeUnit

/-- The first half of a surrogate pair. -/
def isLead (code : Nat) : Bool := 0xD800 ≤ code && code ≤ 0xDBFF

/-- The second half of a surrogate pair. -/
def isTrail (code : Nat) : Bool := 0xDC00 ≤ code && code ≤ 0xDFFF

def pair (lead trail : Nat) : Char :=
  Char.ofNat (0x10000 + (lead - 0xD800) * 0x400 + (trail - 0xDC00))

/-- The characters of a string, unless a half of a surrogate pair stands alone. -/
def chars? : List CodeUnit → Option (List Char)
  | [] => some []
  | .char c :: rest => (chars? rest).map (c :: ·)
  | .escaped lead :: .escaped trail :: rest =>
    if isLead lead then
      if isTrail trail then (chars? rest).map (pair lead trail :: ·) else none
    else if isTrail lead then none
    else (chars? (.escaped trail :: rest)).map (Char.ofNat lead :: ·)
  | .escaped code :: rest =>
    if isLead code || isTrail code then none
    else (chars? rest).map (Char.ofNat code :: ·)

/-- The fault of a string that breaks off with `fault`: half of a surrogate pair that stands
alone comes first. -/
def brokenFault (fault : Fault) : List CodeUnit → Fault
  | [] => fault
  | .char _ :: rest => brokenFault fault rest
  | .escaped lead :: .escaped trail :: rest =>
    if isLead lead then
      if isTrail trail then brokenFault fault rest else .malformed
    else if isTrail lead then .malformed
    else brokenFault fault (.escaped trail :: rest)
  | [.escaped code] => if isTrail code then .malformed else fault
  | .escaped code :: rest =>
    if isLead code || isTrail code then .malformed else brokenFault fault rest

end CodeUnit

namespace Tree

def text? (units : List CodeUnit) : Option String := (CodeUnit.chars? units).map String.ofList

def keyFault : Tree → Fault
  | .broken stop => stop.wanted
  | _ => .malformed

mutual

/-- The first fault for a reader that skips the value. -/
def skipFault? : Tree → Option Fault
  | .array items cut => skipItems? items <|> cut
  | .object members cut => skipMembers? members <|> cut
  | .broken stop => some stop.skipped
  | .brokenWord stop => some stop.skipped
  | _ => none

def skipItems? : List Tree → Option Fault
  | [] => none
  | item :: rest => skipFault? item <|> skipItems? rest

def skipMembers? : List (Tree × Tree) → Option Fault
  | [] => none
  | (.string _, value) :: rest => skipFault? value <|> skipMembers? rest
  | (.broken stop, _) :: _ => some stop.skipped
  | _ :: _ => some .malformed

end

mutual

/-- The first fault for a reader that wants the value whatever its shape, where containers may
be nested `depth` levels deep. -/
def wholeFault? : Nat → Tree → Option Fault
  | _, .null => none
  | _, .bool _ => none
  | _, .number literal => if literal.isBeyondDouble then some .malformed else none
  | _, .string units => if (CodeUnit.chars? units).isSome then none else some .malformed
  | 0, .array _ _ => some .malformed
  | depth + 1, .array items cut => wholeItems? depth items <|> cut
  | 0, .object _ _ => some .malformed
  | depth + 1, .object members cut => wholeMembers? depth members <|> cut
  | _, .broken stop => some stop.wanted
  | _, .brokenWord stop => some stop.wanted

def wholeItems? : Nat → List Tree → Option Fault
  | _, [] => none
  | depth, item :: rest => wholeFault? depth item <|> wholeItems? depth rest

def wholeMembers? : Nat → List (Tree × Tree) → Option Fault
  | _, [] => none
  | depth, (.string units, value) :: rest =>
    if (CodeUnit.chars? units).isSome then
      wholeFault? depth value <|> wholeMembers? depth rest
    else some .malformed
  | _, (key, _) :: _ => some key.keyFault

end

/-- The fault where a value of another shape was wanted. A scalar is read to its end first, a
container is refused where it opens. -/
def shapeFault : Tree → Fault
  | .number literal => if literal.isBeyondDouble then .malformed else .mismatch
  | .string units => if (CodeUnit.chars? units).isSome then .mismatch else .malformed
  | .broken stop => stop.wanted
  | .brokenWord stop => stop.wanted
  | _ => .mismatch

end Tree

end InjectionPlan.Json
