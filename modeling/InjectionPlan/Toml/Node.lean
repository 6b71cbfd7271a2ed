import InjectionPlan.Config.Setting

/-!
# Tables in the making

A document defines its tables piece by piece. A table remembers how it came to be, since that
decides what may still be added to it: a table with a header of its own is complete under other
headers, a table that dotted keys made takes only more dotted keys, and a value is never added
to.
-/

namespace InjectionPlan.Toml

/-- How a table came to be. -/
inductive Origin where
  /-- By its own header. -/
  | header
  /-- As a part of the path of another header. -/
  | passed
  /-- As a part of a dotted key. -/
  | dotted
  deriving DecidableEq

inductive Node where
  /-- A value; lists and tables among values are complete. -/
  | leaf (value : Setting)
  | table (origin : Origin) (entries : List (String × Node))
  /-- Tables under one header each. Only the last one can be added to. -/
  | tables (earlier : List (List (String × Node))) (last : List (String × Node))

namespace Node

abbrev Entries := List (String × Node)

mutual

/-- What the key stands for when the document ends. -/
def setting : Node → Setting
  | .leaf value => value
  | .table _ entries => .table (settings entries)
  | .tables earlier last => .list (tableList earlier ++ [.table (settings last)])

def settings : List (String × Node) → List (String × Setting)
  | [] => []
  | (key, node) :: rest => (key, setting node) :: settings rest

def tableList : List (List (String × Node)) → List Setting
  | [] => []
  | entries :: rest => .table (settings entries) :: tableList rest

end

/-- Changes the table at the end of a path. Tables that are missing on the way are made, with
the origin `made`; a header table must not be entered where `made` is `dotted`. -/
def change (made : Origin) (final : Origin → Entries → Option Entries) :
    List String → Origin → Entries → Option Entries
  | [], origin, entries => final origin entries
  | key :: path, _, entries =>
    match InjectionPlan.Entries.get? key entries with
    | none => (change made final path made []).map fun inner =>
      InjectionPlan.Entries.put key (.table made inner) entries
    | some (.table origin inner) =>
      if made = .dotted ∧ origin = .header then none
      else (change made final path origin inner).map fun inner =>
        InjectionPlan.Entries.put key (.table origin inner) entries
    | some (.tables earlier last) => (change made final path .header last).map fun last =>
      InjectionPlan.Entries.put key (.tables earlier last) entries
    | some (.leaf _) => none

/-- Gives a dotted key its value. The last part of the key must be new, and the table that takes
it must be made by dotted keys, unless the key is not dotted. -/
def assign (path : List String) (key : String) (value : Setting) :
    Origin → Entries → Option Entries :=
  let final (origin : Origin) (entries : Entries) : Option Entries :=
    if !path.isEmpty && origin != .dotted then none
    else match InjectionPlan.Entries.get? key entries with
      | some _ => none
      | none => some (InjectionPlan.Entries.put key (.leaf value) entries)
  change .dotted final path

/-- Opens the table of a header. It may have been passed by other headers, but not defined. -/
def openTable (key : String) (entries : Entries) : Option Entries :=
  match InjectionPlan.Entries.get? key entries with
  | none => some (InjectionPlan.Entries.put key (.table .header []) entries)
  | some (.table .passed inner) =>
    some (InjectionPlan.Entries.put key (.table .header inner) entries)
  | some _ => none

def openListed (key : String) (entries : Entries) : Option Entries :=
  match InjectionPlan.Entries.get? key entries with
  | none => some (InjectionPlan.Entries.put key (.tables [] []) entries)
  | some (.tables earlier last) =>
    some (InjectionPlan.Entries.put key (.tables (earlier ++ [last]) []) entries)
  | some _ => none

end Node

end InjectionPlan.Toml
