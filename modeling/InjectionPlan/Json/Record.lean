import InjectionPlan.Json.Decode

/-!
# Records in JSON

A record is an object with known members in any order, or a list of its fields in the order in
which they are declared. Members of other names are skipped. The members are read in text
order, and the first fault of the text is the fault of the record: a key that cannot be read, a
known key that comes again (before its value is looked at), a known value of the wrong shape, a
skipped value that is not JSON, or the way the object breaks off. A missing field shows only at
the end.
-/

namespace InjectionPlan.Json

abbrev Members := List (String × Tree)

/-- A fault with the number of the member that shows it. -/
structure Misfit where
  member : Nat
  fault : Fault

/-- The fields of a record: their names in order, and their values among the members. -/
structure Record (α : Type) where
  names : List String
  read : Members → Except Misfit α

namespace Record

def Misfit.earlier (a b : Misfit) : Misfit := if b.member < a.member then b else a

def both {α β : Type} : Except Misfit (α → β) → Except Misfit α → Except Misfit β
  | .ok f, .ok a => .ok (f a)
  | .ok _, .error e => .error e
  | .error e, .ok _ => .error e
  | .error e, .error e' => .error (Misfit.earlier e e')

instance : Applicative Record where
  pure a := ⟨[], fun _ => .ok a⟩
  seq f a := ⟨f.names ++ (a ()).names, fun members => both (f.read members) ((a ()).read members)⟩

def member? (name : String) : Members → Nat → Option (Nat × Tree)
  | [], _ => none
  | (key, value) :: rest, i => if key = name then some (i, value) else member? name rest (i + 1)

/-- A field that takes `missing` where no member has its name. -/
def field {α : Type} (name : String) (decode : Decoder α) (missing : Option α) : Record α where
  names := [name]
  read members :=
    match member? name members 0, missing with
    | some (i, tree), _ => (decode tree).mapError fun fault => ⟨i, fault⟩
    | none, some a => .ok a
    | none, none => .error ⟨members.length + 1, .mismatch⟩

def required {α : Type} (name : String) (decode : Decoder α) : Record α :=
  field name decode none

def defaulted {α : Type} (name : String) (a : α) (decode : Decoder α) : Record α :=
  field name decode (some a)

/-- A field that may be null or missing. -/
def optional {α : Type} (name : String) (decode : Decoder α) : Record (Option α) :=
  field name (.optional decode) (some none)

/-- The members before the first fault that does not depend on the values of fields, and that
fault. The known names that were met are `met`. -/
def settle (known : List String) (other : Tree → Option Fault) :
    List String → Members → Option Fault → Members × Option Fault
  | _, [], cut => ([], cut)
  | met, (key, value) :: rest, cut =>
    if key ∈ known then
      if key ∈ met then ([], some .mismatch)
      else
        let (members, cut) := settle known other (key :: met) rest cut
        ((key, value) :: members, cut)
    else match other value with
      | some fault => ([], some fault)
      | none =>
        let (members, cut) := settle known other met rest cut
        ((key, value) :: members, cut)

/-- The record among settled members. A misfit of a member comes before the fault that follows
all members, and that one before a missing field. -/
def conclude {α : Type} (record : Record α) (members : Members) (cut : Option Fault) :
    Except Fault α :=
  match record.read members, cut with
  | .ok a, none => .ok a
  | .ok _, some fault => .error fault
  | .error misfit, none => .error misfit.fault
  | .error misfit, some fault =>
    .error (if misfit.member < members.length then misfit.fault else fault)

def ofMembers {α : Type} (record : Record α) (members : Members) (cut : Option Fault) :
    Except Fault α :=
  let (members, cut) := settle record.names Tree.skipFault? [] members cut
  record.conclude members cut

/-- Whether a list may give more items than a record has fields. -/
inductive Surplus where
  | refused
  | ignored
  deriving DecidableEq

/-- The record in a list of its fields. Items beyond the last field are no JSON that a reader of
the record could go on with. -/
def ofItems {α : Type} (record : Record α) (surplus : Surplus) (items : List Tree)
    (cut : Option Fault) : Except Fault α :=
  let cut := if items.length ≤ record.names.length then cut
    else match surplus with
      | .refused => some .malformed
      | .ignored => none
  record.conclude (record.names.zip items) cut

def decode {α : Type} (record : Record α) (surplus : Surplus) : Decoder α
  | .object entries cut =>
    let (members, cut) := Decoder.readableKeys entries cut
    record.ofMembers members cut
  | .array items cut => record.ofItems surplus items cut
  | tree => .error tree.shapeFault

def exact {α : Type} (record : Record α) : Decoder α := record.decode .refused

def distinct (known : List String) (members : Members) : Bool :=
  (members.filter (·.1 ∈ known)).map (·.1) |>.Nodup

/-- Two records in one object. The members of `outer` are read where they stand; all others are
read whole, nested at most `depth` levels, and the fields of `inner` are looked for among them
at the end, where only a mismatch can be told. Such a record is never a list. -/
def flattened {α β : Type} (outer : Record α) (inner : Record β) (depth : Nat) :
    Decoder (α × β)
  | .object entries cut => do
    let (members, cut) := Decoder.readableKeys entries cut
    let (members, cut) := settle outer.names (Tree.wholeFault? depth) [] members cut
    let a ← outer.conclude members cut
    if distinct inner.names members then
      match inner.read members with
      | .ok b => pure (a, b)
      | .error _ => throw .mismatch
    else throw .mismatch
  | tree => .error tree.shapeFault

end Record

end InjectionPlan.Json
