import InjectionPlan.Source.Basic
import InjectionPlan.Text.Blank

/-!
# Snapshots

A snapshot is a table of types and a list of declarations, closed under the handles that they
mention. An oracle is all that resolution asks of a code base; a snapshot answers from its
table, and with nothing on handles beyond it.
-/

namespace InjectionPlan

/-- The types and the declarations of a code base. A handle is a position in `types`. -/
structure Snapshot where
  types : List TypeEntry := []
  declarations : List Declaration := []
  deriving DecidableEq

/-- The questions that resolution asks about a code base. -/
structure Oracle where
  /-- Every declaration in the order of discovery. -/
  declarations : List Declaration
  symbol : TypeId → Option TypeSymbol
  text : TypeId → String
  arguments : TypeId → List TypeId
  /-- The types that a type extends or implements. -/
  bases : TypeId → List TypeId
  signatures : TypeId → List Signature

inductive Site where
  | entry (index : Nat) (text : String)
  | declaration (qualifiedName : String)
  deriving DecidableEq

/-- Why a snapshot is not closed. -/
inductive SnapshotError where
  /-- A type beyond the table of `count` entries is mentioned. -/
  | unknownType (site : Site) (type : TypeId) (count : Nat)
  | unnamedDeclaration
  deriving DecidableEq

def Site.label : Site → String
  | .entry index text => s!"type #{index} `{text}`"
  | .declaration name => s!"declaration `{name}`"

def SnapshotError.message : SnapshotError → String
  | .unknownType site type count =>
    s!"{site.label} references unknown type {type.label} (table has {count} entries)"
  | .unnamedDeclaration => "declaration with an empty name"

namespace Snapshot

def entry? (snapshot : Snapshot) (ty : TypeId) : Option TypeEntry := snapshot.types[ty.index]?

def knows (snapshot : Snapshot) (ty : TypeId) : Bool := ty.index < snapshot.types.length

/-- The first of the types that the table does not have. -/
def unknown? (snapshot : Snapshot) (site : Site) (types : List TypeId) : Option SnapshotError :=
  (types.find? fun ty => !snapshot.knows ty).map fun ty =>
    .unknownType site ty snapshot.types.length

def entryFault? (snapshot : Snapshot) (indexed : TypeEntry × Nat) : Option SnapshotError :=
  snapshot.unknown? (.entry indexed.2 indexed.1.text) indexed.1.references

/-- The first fault of a declaration: a blank name, then a type beyond the table. -/
def declarationFault? (snapshot : Snapshot) (declaration : Declaration) : Option SnapshotError :=
  if Text.isBlankText declaration.name then some .unnamedDeclaration
  else snapshot.unknown? (.declaration declaration.qualifiedName) declaration.references

/-- The first fault, the table before the declarations. -/
def fault? (snapshot : Snapshot) : Option SnapshotError :=
  snapshot.types.zipIdx.findSome? snapshot.entryFault? <|>
    snapshot.declarations.findSome? snapshot.declarationFault?

/-- The snapshot, if every type it mentions is in its table and every declaration is named. -/
def validate (snapshot : Snapshot) : Except SnapshotError Snapshot :=
  match snapshot.fault? with
  | none => .ok snapshot
  | some error => .error error

def oracle (snapshot : Snapshot) : Oracle where
  declarations := snapshot.declarations
  symbol ty := (snapshot.entry? ty).bind TypeEntry.symbol
  text ty := ((snapshot.entry? ty).map TypeEntry.text).getD ""
  arguments ty := ((snapshot.entry? ty).map TypeEntry.arguments).getD []
  bases ty := ((snapshot.entry? ty).map TypeEntry.bases).getD []
  signatures ty := ((snapshot.entry? ty).map TypeEntry.signatures).getD []

end Snapshot

end InjectionPlan
